import Heimdall.Effect.Run

/-!
# Weakest preconditions with rely and guarantee

A `Setting` fixes how the world reacts to operations, what others may do to the state before each
operation (`rely`), and what every single operation of the program has to satisfy (`guar`). `wp`
folds a setting over a program. The precondition is about *every* run: the outcome satisfies the
postcondition and each step on the way satisfies the guarantee, which is where crash invariants and
trace properties live.

A sequential setting relies on nothing happening between two operations; `wp_trace` reads such a
precondition back as a statement about traces, finished or not.
-/

namespace Effect

variable {σ Op : Type} {Ans : Op → Type} {Exc α β : Type}

/-- The assumptions and obligations a program is verified under. -/
structure Setting (σ Op : Type) (Ans : Op → Type) (Exc : Type) where
  /-- The reaction of the world to an operation. -/
  step : Env σ Op Ans Exc
  /-- What others may do before an operation. -/
  rely : σ → σ → Prop
  /-- What every operation of the program must satisfy. -/
  guar : Env σ Op Ans Exc

/-- The setting of a program that runs alone. -/
def Setting.alone (step guar : Env σ Op Ans Exc) : Setting σ Op Ans Exc where
  step := step
  rely := Eq
  guar := guar

/-- `wp M p Q s`: every run of `p` from `s` meets the guarantee at each step and ends in `Q`. -/
def wp (M : Setting σ Op Ans Exc) : Prog Op Ans Exc α → (Except Exc α → σ → Prop) → σ → Prop
  | .pure a, Q, s => Q (.ok a) s
  | .raise x, Q, s => Q (.error x) s
  | .call o k, Q, s => ∀ s₁, M.rely s s₁ → ∀ r s₂, M.step s₁ o r s₂ →
      M.guar s₁ o r s₂ ∧ wp M (k r) Q s₂

variable {M : Setting σ Op Ans Exc} {Q Q' : Except Exc α → σ → Prop}

@[simp] theorem wp_pure' (a : α) (s : σ) :
    wp M (Pure.pure a : Prog Op Ans Exc α) Q s = Q (.ok a) s := rfl

@[simp] theorem wp_raise (x : Exc) (s : σ) : wp M (.raise x) Q s = Q (.error x) s := rfl

@[simp] theorem wp_ofExcept (r : Except Exc α) (s : σ) : wp M (.ofExcept r) Q s = Q r s := by
  cases r <;> rfl

theorem wp_call (o : Op) (k : Except Exc (Ans o) → Prog Op Ans Exc α) (s : σ) :
    wp M (.call o k) Q s = ∀ s₁, M.rely s s₁ → ∀ r s₂, M.step s₁ o r s₂ →
      M.guar s₁ o r s₂ ∧ wp M (k r) Q s₂ := rfl

theorem wp_handle (p : Prog Op Ans Exc α) (f : Except Exc α → Prog Op Ans Exc β)
    (Q : Except Exc β → σ → Prop) (s : σ) :
    wp M (p.handle f) Q s = wp M p (fun r s₁ ↦ wp M (f r) Q s₁) s := by
  induction p generalizing s with
  | pure a => rfl
  | raise x => rfl
  | call o k ih => simp only [Prog.handle_call, wp_call, ih]

/-- The postcondition that continues with `f` on a value and ends in `Q` on an exception. -/
def andThen (M : Setting σ Op Ans Exc) (f : α → Prog Op Ans Exc β)
    (Q : Except Exc β → σ → Prop) : Except Exc α → σ → Prop
  | .ok a, s => wp M (f a) Q s
  | .error x, s => Q (.error x) s

@[simp] theorem andThen_ok (f : α → Prog Op Ans Exc β) (Q : Except Exc β → σ → Prop) (a : α)
    (s : σ) : andThen M f Q (.ok a) s = wp M (f a) Q s := rfl

@[simp] theorem andThen_error (f : α → Prog Op Ans Exc β) (Q : Except Exc β → σ → Prop) (x : Exc)
    (s : σ) : andThen M f Q (.error x) s = Q (.error x) s := rfl

theorem wp_bind (p : Prog Op Ans Exc α) (f : α → Prog Op Ans Exc β) (Q : Except Exc β → σ → Prop)
    (s : σ) : wp M (p >>= f) Q s = wp M p (andThen M f Q) s := by
  rw [Prog.bind_eq_handle, wp_handle]
  congr 1
  funext r s₁
  cases r <;> rfl

/-- The postcondition of the body of a `try`: a value ends in `Q`, an exception goes to `h`. -/
def orElse (M : Setting σ Op Ans Exc) (h : Exc → Prog Op Ans Exc α)
    (Q : Except Exc α → σ → Prop) : Except Exc α → σ → Prop
  | .ok a, s => Q (.ok a) s
  | .error x, s => wp M (h x) Q s

@[simp] theorem orElse_ok (h : Exc → Prog Op Ans Exc α) (a : α) (s : σ) :
    orElse M h Q (.ok a) s = Q (.ok a) s := rfl

@[simp] theorem orElse_error (h : Exc → Prog Op Ans Exc α) (x : Exc) (s : σ) :
    orElse M h Q (.error x) s = wp M (h x) Q s := rfl

theorem wp_tryCatch (p : Prog Op Ans Exc α) (h : Exc → Prog Op Ans Exc α) (s : σ) :
    wp M (p.tryCatch h) Q s = wp M p (orElse M h Q) s := by
  rw [Prog.tryCatch, wp_handle]
  congr 1
  funext r s₁
  cases r <;> rfl

theorem wp_attempt (p : Prog Op Ans Exc α) (Q : Except Exc (Except Exc α) → σ → Prop) (s : σ) :
    wp M p.attempt Q s = wp M p (fun r ↦ Q (.ok r)) s := by
  rw [Prog.attempt, wp_handle]
  rfl

theorem wp_tryFinally (p : Prog Op Ans Exc α) (c : Prog Op Ans Exc Unit) (s : σ) :
    wp M (p.tryFinally c) Q s
      = wp M p (fun r ↦ wp M c (andThen M (fun _ ↦ .ofExcept r) Q)) s := by
  rw [Prog.tryFinally, wp_handle]
  congr 1
  funext r s₁
  exact wp_bind c _ Q s₁

theorem wp_op (o : Op) (Q : Except Exc (Ans o) → σ → Prop) (s : σ) :
    wp M (Prog.op o) Q s = ∀ s₁, M.rely s s₁ → ∀ r s₂, M.step s₁ o r s₂ →
      M.guar s₁ o r s₂ ∧ Q r s₂ := by
  simp only [Prog.op, wp_call, wp_ofExcept]

/-! ## Rules -/

theorem wp_mono {p : Prog Op Ans Exc α} {s : σ} (h : wp M p Q s)
    (hQ : ∀ r s', Q r s' → Q' r s') : wp M p Q' s := by
  induction p generalizing s with
  | pure a => exact hQ _ _ h
  | raise x => exact hQ _ _ h
  | call o k ih =>
    intro s₁ hs₁ r s₂ hstep
    obtain ⟨hg, hk⟩ := h s₁ hs₁ r s₂ hstep
    exact ⟨hg, ih r hk⟩

theorem wp_and {p : Prog Op Ans Exc α} {s : σ} (h : wp M p Q s) (h' : wp M p Q' s) :
    wp M p (fun r s' ↦ Q r s' ∧ Q' r s') s := by
  induction p generalizing s with
  | pure a => exact ⟨h, h'⟩
  | raise x => exact ⟨h, h'⟩
  | call o k ih =>
    intro s₁ hs₁ r s₂ hstep
    exact ⟨(h s₁ hs₁ r s₂ hstep).1, ih r (h s₁ hs₁ r s₂ hstep).2 (h' s₁ hs₁ r s₂ hstep).2⟩

/-- An assertion that survives every step that is allowed is still there at the end. -/
theorem wp_frame {I : σ → Prop} (hI : ∀ s s₁ o r s₂, I s → M.rely s s₁ → M.step s₁ o r s₂ →
    M.guar s₁ o r s₂ → I s₂) {p : Prog Op Ans Exc α} {s : σ} (h : wp M p Q s) (hs : I s) :
    wp M p (fun r s' ↦ Q r s' ∧ I s') s := by
  induction p generalizing s with
  | pure a => exact ⟨h, hs⟩
  | raise x => exact ⟨h, hs⟩
  | call o k ih =>
    intro s₁ hs₁ r s₂ hstep
    obtain ⟨hg, hk⟩ := h s₁ hs₁ r s₂ hstep
    exact ⟨hg, ih r hk (hI s s₁ o r s₂ hs hs₁ hstep hg)⟩

/-- A precondition that has been established keeps holding while others act. -/
theorem wp_stable (htrans : ∀ a b c, M.rely a b → M.rely b c → M.rely a c)
    (hQ : ∀ r s s', Q r s → M.rely s s' → Q r s') {p : Prog Op Ans Exc α} {s s' : σ}
    (h : wp M p Q s) (hs : M.rely s s') : wp M p Q s' := by
  cases p with
  | pure a => exact hQ _ _ _ h hs
  | raise x => exact hQ _ _ _ h hs
  | call o k => exact fun s₁ hs₁ ↦ h s₁ (htrans _ _ _ hs hs₁)

/-! ## Preserved assertions -/

/-- An operation keeps an assertion, also after others have acted. -/
def Setting.Keeps (M : Setting σ Op Ans Exc) (I : σ → Prop) (o : Op) : Prop :=
  ∀ s s₁ r s₂, I s → M.rely s s₁ → M.step s₁ o r s₂ → M.guar s₁ o r s₂ ∧ I s₂

/-- A program keeps an assertion, however it ends. In between the assertion may fail. -/
def Preserves (M : Setting σ Op Ans Exc) (I : σ → Prop) (p : Prog Op Ans Exc α) : Prop :=
  ∀ s, I s → wp M p (fun _ s' ↦ I s') s

namespace Preserves

variable {I : σ → Prop} {p : Prog Op Ans Exc α}

/-- What comes after a program that keeps an assertion. -/
theorem apply (hp : Preserves M I p) {s : σ} (hs : I s) (h : ∀ r s', I s' → Q r s') : wp M p Q s :=
  wp_mono (hp s hs) h

theorem pure (a : α) : Preserves M I (.pure a : Prog Op Ans Exc α) := fun _ h ↦ h

theorem raise (x : Exc) : Preserves M I (.raise x : Prog Op Ans Exc α) := fun _ h ↦ h

theorem ofExcept (r : Except Exc α) : Preserves M I (.ofExcept r : Prog Op Ans Exc α) := by
  cases r
  · exact raise _
  · exact pure _

theorem op {o : Op} (h : M.Keeps I o) : Preserves M I (Prog.op o) := by
  intro s hs
  rw [wp_op]
  exact fun s₁ hrely r s₂ hstep ↦ h s s₁ r s₂ hs hrely hstep

theorem handle {f : Except Exc α → Prog Op Ans Exc β} (hp : Preserves M I p)
    (hf : ∀ r, Preserves M I (f r)) : Preserves M I (p.handle f) := by
  intro s hs
  rw [wp_handle]
  exact wp_mono (hp s hs) fun r s' hs' ↦ hf r s' hs'

theorem bind {f : α → Prog Op Ans Exc β} (hp : Preserves M I p) (hf : ∀ a, Preserves M I (f a)) :
    Preserves M I (p >>= f) :=
  hp.handle fun r ↦ by
    cases r with
    | ok a => exact hf a
    | error x => exact raise x

theorem tryCatch {h : Exc → Prog Op Ans Exc α} (hp : Preserves M I p)
    (hh : ∀ x, Preserves M I (h x)) : Preserves M I (p.tryCatch h) :=
  hp.handle fun r ↦ by
    cases r with
    | ok a => exact pure a
    | error x => exact hh x

theorem tryFinally {c : Prog Op Ans Exc Unit} (hp : Preserves M I p) (hc : Preserves M I c) :
    Preserves M I (p.tryFinally c) :=
  hp.handle fun r ↦ hc.handle fun r' ↦ by
    cases r' with
    | ok _ => exact ofExcept r
    | error x => exact raise x

theorem ite {c : Prop} [Decidable c] {q : Prog Op Ans Exc α} (hp : Preserves M I p)
    (hq : Preserves M I q) : Preserves M I (if c then p else q) := by
  split
  · exact hp
  · exact hq

theorem forM {f : α → Prog Op Ans Exc PUnit} {xs : List α} (hf : ∀ a ∈ xs, Preserves M I (f a)) :
    Preserves M I (forM xs f : Prog Op Ans Exc PUnit) := by
  induction xs with
  | nil => exact pure _
  | cons a xs ih =>
    rw [List.forM_cons]
    exact (hf a List.mem_cons_self).bind fun _ ↦ ih fun b hb ↦ hf b (List.mem_cons_of_mem a hb)

/-- A program all of whose operations keep an assertion keeps it. -/
theorem of_uses (hp : p.Uses (M.Keeps I)) : Preserves M I p := by
  intro s hs
  induction p generalizing s with
  | pure a => exact hs
  | raise x => exact hs
  | call o k ih =>
    intro s₁ hrely r s₂ hstep
    obtain ⟨hg, hI⟩ := hp.1 s s₁ r s₂ hs hrely hstep
    exact ⟨hg, ih r (hp.2 r) s₂ hI⟩

end Preserves

/-! ## Tracked exceptions -/

/-- An outcome under two classes of exceptions: a soft one leaves `I` as it was, a hard one has led
to `J`. -/
def Tracked {α : Type} (I J : σ → Prop) (soft hard : Exc → Prop) : Except Exc α → σ → Prop
  | .ok _, s => I s
  | .error x, s => soft x ∧ I s ∨ hard x ∧ J s

/-- An operation whose outcomes are tracked. -/
def Setting.Tracks (M : Setting σ Op Ans Exc) (I J : σ → Prop) (soft hard : Exc → Prop) (o : Op) :
    Prop :=
  ∀ s s₁ r s₂, I s → M.rely s s₁ → M.step s₁ o r s₂ → M.guar s₁ o r s₂ ∧ Tracked I J soft hard r s₂

/-- A program whose outcomes are tracked. With `J = I` it keeps `I`. -/
def Tracks (M : Setting σ Op Ans Exc) (I J : σ → Prop) (soft hard : Exc → Prop)
    (p : Prog Op Ans Exc α) : Prop :=
  ∀ s, I s → wp M p (Tracked I J soft hard) s

namespace Tracks

variable {I J : σ → Prop} {soft hard soft' hard' : Exc → Prop} {p : Prog Op Ans Exc α}

theorem pure (a : α) : Tracks M I J soft hard (.pure a : Prog Op Ans Exc α) := fun _ h ↦ h

theorem raise {x : Exc} (hx : soft x) : Tracks M I J soft hard (.raise x : Prog Op Ans Exc α) :=
  fun _ h ↦ .inl ⟨hx, h⟩

theorem op {o : Op} (h : M.Tracks I J soft hard o) : Tracks M I J soft hard (Prog.op o) := by
  intro s hs
  rw [wp_op]
  exact fun s₁ hrely r s₂ hstep ↦ h s s₁ r s₂ hs hrely hstep

theorem bind {f : α → Prog Op Ans Exc β} (hp : Tracks M I J soft hard p)
    (hf : ∀ a, Tracks M I J soft hard (f a)) : Tracks M I J soft hard (p >>= f) := by
  intro s hs
  rw [wp_bind]
  refine wp_mono (hp s hs) fun r s' hr ↦ ?_
  cases r with
  | ok a => exact hf a s' hr
  | error x => exact hr

/-- A `try` statement may change what counts as soft. -/
theorem tryCatch {h : Exc → Prog Op Ans Exc α} (hp : Tracks M I J soft' hard' p)
    (hsoft : ∀ x, soft' x → Tracks M I J soft hard (h x))
    (hhard : ∀ x s, hard' x → J s → wp M (h x) (Tracked I J soft hard) s) :
    Tracks M I J soft hard (p.tryCatch h) := by
  intro s hs
  rw [wp_tryCatch]
  refine wp_mono (hp s hs) fun r s' hr ↦ ?_
  cases r with
  | ok a => exact hr
  | error x =>
    rcases hr with ⟨hx, hI⟩ | ⟨hx, hJ⟩
    · exact hsoft x hx s' hI
    · exact hhard x s' hx hJ

theorem ite {c : Prop} [Decidable c] {q : Prog Op Ans Exc α} (hp : Tracks M I J soft hard p)
    (hq : Tracks M I J soft hard q) : Tracks M I J soft hard (if c then p else q) := by
  split
  · exact hp
  · exact hq

theorem forM {f : α → Prog Op Ans Exc PUnit} {xs : List α}
    (hf : ∀ a ∈ xs, Tracks M I J soft hard (f a)) :
    Tracks M I J soft hard (forM xs f : Prog Op Ans Exc PUnit) := by
  induction xs with
  | nil => exact pure _
  | cons a xs ih =>
    rw [List.forM_cons]
    exact (hf a List.mem_cons_self).bind fun _ ↦ ih fun b hb ↦ hf b (List.mem_cons_of_mem a hb)

theorem mono (h : Tracks M I J soft hard p) (hsoft : ∀ x, soft x → soft' x) :
    Tracks M I J soft' hard p := fun s hs ↦
  wp_mono (h s hs) fun r s' hr ↦ by
    cases r with
    | ok a => exact hr
    | error x => exact hr.imp_left fun h ↦ ⟨hsoft x h.1, h.2⟩

/-- With one assertion the two classes may be joined. -/
theorem join (h : Tracks M I I soft hard p) (hsoft : ∀ x, soft x ∨ hard x → soft' x) :
    Tracks M I I soft' (fun _ ↦ False) p := fun s hs ↦
  wp_mono (h s hs) fun r s' hr ↦ by
    cases r with
    | ok a => exact hr
    | error x => exact .inl (hr.elim (fun h ↦ ⟨hsoft x (.inl h.1), h.2⟩)
        fun h ↦ ⟨hsoft x (.inr h.1), h.2⟩)

theorem preserves (h : Tracks M I I soft hard p) : Preserves M I p := fun s hs ↦
  wp_mono (h s hs) fun r s' hr ↦ by
    cases r with
    | ok a => exact hr
    | error x => exact hr.elim (fun h ↦ h.2) fun h ↦ h.2

end Tracks

theorem Preserves.tracks {I : σ → Prop} {p : Prog Op Ans Exc α} (h : Preserves M I p) :
    Tracks M I I (fun _ ↦ True) (fun _ ↦ False) p := fun s hs ↦
  wp_mono (h s hs) fun r s' hr ↦ by
    cases r with
    | ok a => exact hr
    | error x => exact .inl ⟨trivial, hr⟩

theorem Setting.Keeps.tracks {I : σ → Prop} {o : Op} (h : M.Keeps I o) :
    M.Tracks I I (fun _ ↦ True) (fun _ ↦ False) o := fun s s₁ r s₂ hs hrely hstep ↦ by
  obtain ⟨hg, hI⟩ := h s s₁ r s₂ hs hrely hstep
  refine ⟨hg, ?_⟩
  cases r with
  | ok a => exact hI
  | error x => exact .inl ⟨trivial, hI⟩

/-! ## Sequential settings -/

theorem wp_op_alone {step guar : Env σ Op Ans Exc} (o : Op) (Q : Except Exc (Ans o) → σ → Prop)
    (s : σ) : wp (.alone step guar) (Prog.op o) Q s
      = ∀ r s', step s o r s' → guar s o r s' ∧ Q r s' := by
  rw [wp_op]
  simp [Setting.alone]

/-- A precondition read as a statement about run prefixes: every event meets the guarantee, and
the precondition is still there for what remains. -/
theorem wp_trace {step guar : Env σ Op Ans Exc} {p p' : Prog Op Ans Exc α} {s s' : σ}
    {t : List (Event σ Op Ans Exc)} (h : wp (.alone step guar) p Q s)
    (ht : Trace step p s t p' s') :
    (∀ e ∈ t, guar e.pre e.op e.ans e.post) ∧ wp (.alone step guar) p' Q s' := by
  induction ht with
  | nil p s => exact ⟨by simp, h⟩
  | cons hstep hrest ih =>
    obtain ⟨hg, hk⟩ := h _ rfl _ _ hstep
    obtain ⟨hin, hrem⟩ := ih hk
    exact ⟨List.forall_mem_cons.mpr ⟨hg, hin⟩, hrem⟩

theorem wp_ends {step guar : Env σ Op Ans Exc} {p : Prog Op Ans Exc α} {s s' : σ}
    {t : List (Event σ Op Ans Exc)} {r : Except Exc α} (h : wp (.alone step guar) p Q s)
    (ht : Ends step p s t r s') : Q r s' := by
  have hend := (wp_trace h ht).2
  rwa [wp_ofExcept] at hend

/-- **The invariant rule.** A guarantee that only looks at the state after each operation holds at
every point of a run, also where the run stops. -/
theorem wp_invariant {step : Env σ Op Ans Exc} {I : σ → Prop} {p p' : Prog Op Ans Exc α} {s s' : σ}
    {t : List (Event σ Op Ans Exc)} (h : wp (.alone step fun _ _ _ s' ↦ I s') p Q s) (hs : I s)
    (ht : Trace step p s t p' s') : I s' := by
  induction ht with
  | nil p s => exact hs
  | cons hstep hrest ih =>
    obtain ⟨hI, hk⟩ := h _ rfl _ _ hstep
    exact ih hk hI

end Effect
