import Heimdall.Effect.Wp

/-!
# Local variables that survive an exception

A Python function whose `except` or `finally` clause looks at a variable assigned inside the `try`
sees the last value the variable had. `Local` is a program that passes its local variables on
together with its outcome, whether the outcome is a value or an exception, so such a function can be
written down as it stands.
-/

namespace Effect

/-- A program with local variables of type `L`. -/
def Local (Op : Type) (Ans : Op → Type) (Exc L α : Type) : Type :=
  L → Prog Op Ans Exc (Except Exc α × L)

namespace Local

variable {σ Op : Type} {Ans : Op → Type} {Exc L α β : Type}

/-- End with an outcome. -/
def done (r : Except Exc α) : Local Op Ans Exc L α := fun l ↦ .pure (r, l)

/-- Run a program and hand its outcome to `f`; the variables are passed on. -/
def handle (m : Local Op Ans Exc L α) (f : Except Exc α → Local Op Ans Exc L β) :
    Local Op Ans Exc L β :=
  fun l ↦ m l >>= fun p ↦ f p.1 p.2

instance : Monad (Local Op Ans Exc L) where
  pure a := done (.ok a)
  bind m f := m.handle fun
    | .ok a => f a
    | .error x => done (.error x)

/-- Run a program that has no access to the variables. -/
def lift (p : Prog Op Ans Exc α) : Local Op Ans Exc L α := fun l ↦ p.attempt >>= fun r ↦ .pure (r, l)

instance : MonadLift (Prog Op Ans Exc) (Local Op Ans Exc L) := ⟨lift⟩

def raise (x : Exc) : Local Op Ans Exc L α := done (.error x)

/-- Read the variables. -/
def get : Local Op Ans Exc L L := fun l ↦ .pure (.ok l, l)

/-- Assign to the variables. -/
def modify (f : L → L) : Local Op Ans Exc L Unit := fun l ↦ .pure (.ok (), f l)

/-- A `try … except` statement. -/
def tryCatch (m : Local Op Ans Exc L α) (h : Exc → Local Op Ans Exc L α) : Local Op Ans Exc L α :=
  m.handle fun
    | .ok a => done (.ok a)
    | .error x => h x

/-- A `try … finally` statement. -/
def tryFinally (m : Local Op Ans Exc L α) (cleanup : Local Op Ans Exc L Unit) :
    Local Op Ans Exc L α :=
  m.handle fun r ↦ cleanup.handle fun
    | .ok () => done r
    | .error x => done (.error x)

/-- Run a function body from the initial values of its variables. -/
def run (m : Local Op Ans Exc L α) (l : L) : Prog Op Ans Exc α :=
  m l >>= fun p ↦ .ofExcept p.1

/-! ## Operations -/

/-- Every operation that can occur satisfies `P`, whatever the variables are. -/
def Uses (P : Op → Prop) (m : Local Op Ans Exc L α) : Prop := ∀ l, (m l).Uses P

variable {P : Op → Prop}

theorem uses_done (r : Except Exc α) : (done r : Local Op Ans Exc L α).Uses P := fun _ ↦ trivial

theorem uses_pure (a : α) : (Pure.pure a : Local Op Ans Exc L α).Uses P := fun _ ↦ trivial

theorem uses_raise (x : Exc) : (raise x : Local Op Ans Exc L α).Uses P := fun _ ↦ trivial

theorem uses_get : (get : Local Op Ans Exc L L).Uses P := fun _ ↦ trivial

theorem uses_modify (f : L → L) : (modify f : Local Op Ans Exc L Unit).Uses P := fun _ ↦ trivial

theorem Uses.lift {p : Prog Op Ans Exc α} (hp : p.Uses P) :
    (Local.lift p : Local Op Ans Exc L α).Uses P :=
  fun _ ↦ hp.attempt.bind fun _ ↦ trivial

theorem Uses.handle {m : Local Op Ans Exc L α} {f : Except Exc α → Local Op Ans Exc L β}
    (hm : m.Uses P) (hf : ∀ r, (f r).Uses P) : (m.handle f).Uses P :=
  fun l ↦ (hm l).bind fun p ↦ hf p.1 p.2

theorem Uses.bind {m : Local Op Ans Exc L α} {f : α → Local Op Ans Exc L β} (hm : m.Uses P)
    (hf : ∀ a, (f a).Uses P) : (m >>= f).Uses P :=
  hm.handle fun r ↦ by
    cases r with
    | ok a => exact hf a
    | error x => exact uses_done _

theorem Uses.tryCatch {m : Local Op Ans Exc L α} {h : Exc → Local Op Ans Exc L α} (hm : m.Uses P)
    (hh : ∀ x, (h x).Uses P) : (m.tryCatch h).Uses P :=
  hm.handle fun r ↦ by
    cases r with
    | ok a => exact uses_done _
    | error x => exact hh x

theorem Uses.tryFinally {m : Local Op Ans Exc L α} {c : Local Op Ans Exc L Unit} (hm : m.Uses P)
    (hc : c.Uses P) : (m.tryFinally c).Uses P :=
  hm.handle fun r ↦ hc.handle fun r' ↦ by cases r' <;> exact uses_done _

theorem Uses.run {m : Local Op Ans Exc L α} (hm : m.Uses P) (l : L) : (m.run l).Uses P :=
  (hm l).bind fun _ ↦ Prog.uses_ofExcept _

end Local

/-! ## Preconditions -/

variable {σ Op : Type} {Ans : Op → Type} {Exc L α β : Type} {M : Setting σ Op Ans Exc}

/-- The postcondition of a program with variables, as one of the underlying program, which itself
never raises. -/
def withLocals (Q : Except Exc α → L → σ → Prop) : Except Exc (Except Exc α × L) → σ → Prop
  | .ok p, s => Q p.1 p.2 s
  | .error _, _ => False

/-- The precondition of a program with variables. -/
def wpl (M : Setting σ Op Ans Exc) (m : Local Op Ans Exc L α) (Q : Except Exc α → L → σ → Prop)
    (l : L) (s : σ) : Prop :=
  wp M (m l) (withLocals Q) s

/-- The postcondition that continues with `f` on a value and ends in `Q` on an exception. -/
def andThenL (M : Setting σ Op Ans Exc) (f : α → Local Op Ans Exc L β)
    (Q : Except Exc β → L → σ → Prop) : Except Exc α → L → σ → Prop
  | .ok a, l, s => wpl M (f a) Q l s
  | .error x, l, s => Q (.error x) l s

@[simp] theorem andThenL_ok (f : α → Local Op Ans Exc L β) (Q : Except Exc β → L → σ → Prop)
    (a : α) (l : L) (s : σ) : andThenL M f Q (.ok a) l s = wpl M (f a) Q l s := rfl

@[simp] theorem andThenL_error (f : α → Local Op Ans Exc L β) (Q : Except Exc β → L → σ → Prop)
    (x : Exc) (l : L) (s : σ) : andThenL M f Q (.error x) l s = Q (.error x) l s := rfl

variable {Q Q' : Except Exc α → L → σ → Prop}

theorem wpl_handle (m : Local Op Ans Exc L α) (f : Except Exc α → Local Op Ans Exc L β)
    (Q : Except Exc β → L → σ → Prop) (l : L) (s : σ) :
    wpl M (m.handle f) Q l s = wpl M m (fun r l' s' ↦ wpl M (f r) Q l' s') l s := by
  unfold wpl Local.handle
  rw [wp_bind]
  congr 1
  funext r s'
  cases r <;> rfl

@[simp] theorem wpl_done (r : Except Exc α) (l : L) (s : σ) :
    wpl M (Local.done r) Q l s = Q r l s := rfl

@[simp] theorem wpl_pure (a : α) (l : L) (s : σ) :
    wpl M (Pure.pure a : Local Op Ans Exc L α) Q l s = Q (.ok a) l s := rfl

@[simp] theorem wpl_raise (x : Exc) (l : L) (s : σ) :
    wpl M (Local.raise x) Q l s = Q (.error x) l s := rfl

@[simp] theorem wpl_get (Q : Except Exc L → L → σ → Prop) (l : L) (s : σ) :
    wpl M Local.get Q l s = Q (.ok l) l s := rfl

@[simp] theorem wpl_modify (f : L → L) (Q : Except Exc Unit → L → σ → Prop) (l : L) (s : σ) :
    wpl M (Local.modify f) Q l s = Q (.ok ()) (f l) s := rfl

theorem wpl_lift (p : Prog Op Ans Exc α) (l : L) (s : σ) :
    wpl M (Local.lift p) Q l s = wp M p (fun r s' ↦ Q r l s') s := by
  unfold wpl Local.lift
  rw [wp_bind, wp_attempt]
  rfl

theorem wpl_liftM (p : Prog Op Ans Exc α) (l : L) (s : σ) :
    wpl M (liftM p : Local Op Ans Exc L α) Q l s = wp M p (fun r s' ↦ Q r l s') s := wpl_lift p l s

theorem wpl_bind (m : Local Op Ans Exc L α) (f : α → Local Op Ans Exc L β)
    (Q : Except Exc β → L → σ → Prop) (l : L) (s : σ) :
    wpl M (m >>= f) Q l s = wpl M m (andThenL M f Q) l s := by
  refine (wpl_handle _ _ Q l s).trans ?_
  congr 1
  funext r l' s'
  cases r <;> rfl

/-- The postcondition of the body of a `try … except`. -/
def orElseL (M : Setting σ Op Ans Exc) (h : Exc → Local Op Ans Exc L α)
    (Q : Except Exc α → L → σ → Prop) : Except Exc α → L → σ → Prop
  | .ok a, l, s => Q (.ok a) l s
  | .error x, l, s => wpl M (h x) Q l s

@[simp] theorem orElseL_ok (h : Exc → Local Op Ans Exc L α) (a : α) (l : L) (s : σ) :
    orElseL M h Q (.ok a) l s = Q (.ok a) l s := rfl

@[simp] theorem orElseL_error (h : Exc → Local Op Ans Exc L α) (x : Exc) (l : L) (s : σ) :
    orElseL M h Q (.error x) l s = wpl M (h x) Q l s := rfl

theorem wpl_tryCatch (m : Local Op Ans Exc L α) (h : Exc → Local Op Ans Exc L α) (l : L) (s : σ) :
    wpl M (m.tryCatch h) Q l s = wpl M m (orElseL M h Q) l s := by
  refine (wpl_handle _ _ Q l s).trans ?_
  congr 1
  funext r l' s'
  cases r <;> rfl

/-- The postcondition of a `finally` clause that runs after an outcome `r`. -/
def afterFinally (Q : Except Exc α → L → σ → Prop) (r : Except Exc α) :
    Except Exc Unit → L → σ → Prop
  | .ok _, l, s => Q r l s
  | .error x, l, s => Q (.error x) l s

@[simp] theorem afterFinally_ok (r : Except Exc α) (u : Unit) (l : L) (s : σ) :
    afterFinally Q r (.ok u) l s = Q r l s := rfl

@[simp] theorem afterFinally_error (r : Except Exc α) (x : Exc) (l : L) (s : σ) :
    afterFinally Q r (.error x) l s = Q (.error x) l s := rfl

theorem wpl_tryFinally (m : Local Op Ans Exc L α) (c : Local Op Ans Exc L Unit) (l : L) (s : σ) :
    wpl M (m.tryFinally c) Q l s = wpl M m (fun r ↦ wpl M c (afterFinally Q r)) l s := by
  refine (wpl_handle _ _ Q l s).trans ?_
  congr 1
  funext r l' s'
  rw [wpl_handle]
  congr 1
  funext r' l'' s''
  cases r' <;> rfl

theorem wp_run {m : Local Op Ans Exc L α} {l : L} {Q : Except Exc α → σ → Prop} {s : σ}
    (h : wpl M m (fun r _ s' ↦ Q r s') l s) : wp M (m.run l) Q s := by
  rw [Local.run, wp_bind]
  refine wp_mono h fun r s' hr ↦ ?_
  cases r with
  | ok p => rw [andThen_ok, wp_ofExcept]; exact hr
  | error x => exact hr.elim

theorem wpl_mono {m : Local Op Ans Exc L α} {l : L} {s : σ} (h : wpl M m Q l s)
    (hQ : ∀ r l' s', Q r l' s' → Q' r l' s') : wpl M m Q' l s := by
  refine wp_mono h fun r s' hr ↦ ?_
  cases r with
  | ok p => exact hQ _ _ _ hr
  | error x => exact hr

end Effect
