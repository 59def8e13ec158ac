import Heimdall.Edge.Journal

/-!
# Owning the files of the edge

A program that holds the lock of the edge root is the only one that touches the files there. An
`Ownership` says so of a setting, whatever else the setting's world contains; `Stage D fs` is the
assertion that the lock is held, the files are `fs` and the rest of the world satisfies `D`. The rules
of this module say what each file routine of the configuration manager does to the files.

Two switches adapt the rules to what is asked: `strict` settings want the journal invariant after
every operation, and in `reliable` ones no file operation fails.
-/

namespace Heimdall

open Effect

/-- The file operations of a lock holder. -/
def FileOp.Inner : FileOp → Prop
  | .exists _ | .readText _ | .mkstemp | .writeText _ _ | .chmod _ | .fsync _ | .replace _ _
  | .unlink _ | .fsyncDirectory _ => True
  | _ => False

/-- The file operations on temporary files. -/
def FileOp.Minor : FileOp → Prop
  | .mkstemp => True
  | .writeText p _ | .chmod p | .fsync p | .unlink p => ∃ n, p = .edge (.temporary n)
  | _ => False

theorem FileOp.Minor.inner {o : FileOp} (ho : o.Minor) : o.Inner := by
  cases o <;> first
    | exact ho.elim
    | trivial

/-- The files the operation needs are there. -/
def FileOp.Possible (fs : FileSystem) : FileOp → Prop
  | .readText p => (fs p).isSome
  | .replace source _ => (fs source).isSome
  | _ => True

/-- The operations of the configuration manager while it holds the lock, its callbacks aside. -/
def Op.Inner : Op → Prop
  | .file o => o.Inner
  | o => o.Quiet

variable {σ : Type}

/-- Whoever holds the lock owns the files. -/
structure Ownership (M : Setting σ Op Ans Exc) where
  files : σ → FileSystem
  held : σ → Prop
  /-- The journal invariant is part of the guarantee. -/
  strict : Prop
  /-- File operations do not fail. -/
  reliable : Prop
  rely : ∀ s s', held s → M.rely s s' → held s' ∧ files s' = files s
  file : ∀ s (o : FileOp) r s', held s → o.Inner → M.step s (.file o) r s' →
    held s' ∧ FileOp.Step (files s) o r (files s')
      ∧ (reliable → o.Possible (files s) → Succeeds r)
      ∧ ((strict → JournalOk (files s')) → M.guar s (.file o) r s')
  quiet : ∀ s (o : Op) r s', held s → o.Quiet → M.step s o r s' →
    held s' ∧ files s' = files s ∧ ((strict → JournalOk (files s)) → M.guar s o r s')

namespace Ownership

variable {M : Setting σ Op Ans Exc} (W : Ownership M)

/-- An assertion about the rest of the world that others do not disturb. -/
def Stable (D : σ → Prop) : Prop := ∀ s s', W.held s → D s → M.rely s s' → D s'

/-- One assertion for a value and one for an exception. -/
def Outcome {α : Type} (D E : σ → Prop) : Except Exc α → σ → Prop
  | .ok _ => D
  | .error _ => E

/-- An operation takes `D` to `D'`, or to `E` when it fails. -/
def Turns (o : Op) (D D' E : σ → Prop) : Prop :=
  ∀ s r s', W.held s → D s → M.step s o r s' → Outcome D' E r s'

/-- The minor file operations keep `D` until one of them fails, and `E` from then on. -/
structure Frame (D E : σ → Prop) : Prop where
  stable : W.Stable D
  stable' : W.Stable E
  turns : ∀ o : FileOp, o.Minor → W.Turns (.file o) D D E
  failed : ∀ o : FileOp, o.Minor → W.Turns (.file o) E E E

/-- An assertion that neither others nor quiet operations disturb. -/
structure Calm (D : σ → Prop) : Prop where
  stable : W.Stable D
  turns : ∀ o : Op, o.Quiet → W.Turns o D D D

/-- An assertion that neither others nor the manager itself disturb. -/
structure Framed (D : σ → Prop) : Prop where
  stable : W.Stable D
  turns : ∀ o : Op, o.Inner → W.Turns o D D D

/-- The lock is held, the files are `fs` and the rest of the world satisfies `D`. -/
structure Stage (D : σ → Prop) (fs : FileSystem) (s : σ) : Prop where
  held : W.held s
  files : W.files s = fs
  safe : W.strict → JournalOk fs
  rest : D s

variable {W} {D D' E E' : σ → Prop} {fs : FileSystem} {s : σ}

theorem Frame.after (h : W.Frame D E) : W.Frame E E := ⟨h.stable', h.stable', h.failed, h.failed⟩

theorem Framed.frame (h : W.Framed D) : W.Frame D D :=
  ⟨h.stable, h.stable, fun o ho ↦ h.turns (.file o) ho.inner, fun o ho ↦ h.turns (.file o) ho.inner⟩

theorem Framed.calm (h : W.Framed D) : W.Calm D := by
  refine ⟨h.stable, fun o ho ↦ h.turns o ?_⟩
  cases o
  case file => exact ho.elim
  all_goals exact ho

theorem Stage.weaken (h : W.Stage D fs s) (hD : ∀ s, D s → D' s) : W.Stage D' fs s :=
  ⟨h.held, h.files, h.safe, hD s h.rest⟩

theorem Stage.of_rely {s' : σ} (hD : W.Stable D) (h : W.Stage D fs s) (hrely : M.rely s s') :
    W.Stage D fs s' := by
  obtain ⟨hheld, hfiles⟩ := W.rely s s' h.held hrely
  exact ⟨hheld, hfiles.trans h.files, h.safe, hD s s' h.held h.rest hrely⟩

theorem keeps_quiet (hD : W.Calm D) (fs : FileSystem) (o : Op) (ho : o.Quiet) :
    M.Keeps (W.Stage D fs) o := by
  intro s s₁ r s₂ hs hrely hstep
  have hs₁ := hs.of_rely hD.stable hrely
  obtain ⟨hheld, hfiles, hguar⟩ := W.quiet s₁ o r s₂ hs₁.held ho hstep
  refine ⟨hguar fun hstrict ↦ hs₁.files ▸ hs₁.safe hstrict, hheld, hfiles.trans hs₁.files, hs₁.safe,
    ?_⟩
  have hturned := hD.turns o ho s₁ r s₂ hs₁.held hs₁.rest hstep
  cases r <;> exact hturned

theorem quietOps (hD : W.Calm D) (fs : FileSystem) :
    QuietOps M (W.Stage D fs) (W.Stage D fs) (fun _ ↦ True) fun _ ↦ False :=
  .of_keeps fun o ho ↦ keeps_quiet hD fs o ho

/-- **The file rule**: one file operation of the lock holder. -/
theorem wp_file (hD : W.Stable D) {o : FileOp} (hturns : W.Turns (.file o) D D' E)
    {Q : Except Exc o.Ans → σ → Prop} (hs : W.Stage D fs s)
    (h : ∀ r fs', FileOp.Step fs o r fs' → (W.reliable → o.Possible fs → Succeeds r) →
      (W.strict → JournalOk fs')
        ∧ ∀ s', Outcome (W.Stage D' fs') (W.Stage E fs') r s' → Q r s')
    (ho : o.Inner := by trivial) : wp M (Py.file o) Q s := by
  unfold Py.file
  rw [wp_op]
  intro s₁ hrely r s₂ hstep
  have hs₁ := hs.of_rely hD hrely
  obtain ⟨hheld, hstepped, hrel, hguar⟩ := W.file s₁ o r s₂ hs₁.held ho hstep
  rw [hs₁.files] at hstepped hrel
  obtain ⟨hsafe, hQ⟩ := h r _ hstepped hrel
  have hturned := hturns s₁ r s₂ hs₁.held hs₁.rest hstep
  refine ⟨hguar hsafe, hQ s₂ ?_⟩
  cases r <;> exact ⟨hheld, rfl, hsafe, hturned⟩

/-- An operation that leaves the files as they are. -/
theorem wp_file_same (hD : W.Stable D) {o : FileOp} (hturns : W.Turns (.file o) D D' E)
    {Q : Except Exc o.Ans → σ → Prop} (hs : W.Stage D fs s)
    (h : ∀ r s', FileOp.Step fs o r fs → (W.reliable → o.Possible fs → Succeeds r) →
      Outcome (W.Stage D' fs) (W.Stage E fs) r s' → Q r s')
    (hread : o.ReadOnly := by trivial) (ho : o.Inner := by trivial) : wp M (Py.file o) Q s := by
  refine wp_file hD hturns hs (fun r fs' hstep hrel ↦ ?_) ho
  obtain rfl := hstep.readOnly hread
  exact ⟨hs.safe, fun s' ↦ h r s' hstep hrel⟩

/-- A minor file operation. -/
theorem wp_minor (hD : W.Frame D E) {o : FileOp} {Q : Except Exc o.Ans → σ → Prop}
    (hs : W.Stage D fs s)
    (h : ∀ r fs', FileOp.Step fs o r fs' → (W.reliable → o.Possible fs → Succeeds r) →
      (W.strict → JournalOk fs') ∧ ∀ s', Outcome (W.Stage D fs') (W.Stage E fs') r s' → Q r s')
    (ho : o.Minor := by first | trivial | exact ⟨_, rfl⟩) : wp M (Py.file o) Q s :=
  wp_file hD.stable (hD.turns o ho) hs h ho.inner

/-- A minor file operation that leaves the files as they are. -/
theorem wp_minor_same (hD : W.Frame D E) {o : FileOp} {Q : Except Exc o.Ans → σ → Prop}
    (hs : W.Stage D fs s)
    (h : ∀ r s', FileOp.Step fs o r fs → (W.reliable → o.Possible fs → Succeeds r) →
      Outcome (W.Stage D fs) (W.Stage E fs) r s' → Q r s')
    (hread : o.ReadOnly := by trivial) (ho : o.Minor := by first | trivial | exact ⟨_, rfl⟩) :
    wp M (Py.file o) Q s :=
  wp_file_same hD.stable (hD.turns o ho) hs h hread ho.inner

/-- A file operation under an assertion that the manager does not disturb. -/
theorem wp_inner (hD : W.Framed D) {o : FileOp} {Q : Except Exc o.Ans → σ → Prop}
    (hs : W.Stage D fs s)
    (h : ∀ r fs', FileOp.Step fs o r fs' → (W.reliable → o.Possible fs → Succeeds r) →
      (W.strict → JournalOk fs') ∧ ∀ s', W.Stage D fs' s' → Q r s')
    (ho : o.Inner := by trivial) : wp M (Py.file o) Q s := by
  refine wp_file hD.stable (hD.turns (.file o) ho) hs (fun r fs' hstep hrel ↦ ?_) ho
  obtain ⟨hsafe, hQ⟩ := h r fs' hstep hrel
  refine ⟨hsafe, fun s' hs' ↦ hQ s' ?_⟩
  cases r <;> exact hs'

/-- Such an operation when it leaves the files as they are. -/
theorem wp_inner_same (hD : W.Framed D) {o : FileOp} {Q : Except Exc o.Ans → σ → Prop}
    (hs : W.Stage D fs s)
    (h : ∀ r s', FileOp.Step fs o r fs → (W.reliable → o.Possible fs → Succeeds r) →
      W.Stage D fs s' → Q r s')
    (hread : o.ReadOnly := by trivial) (ho : o.Inner := by trivial) : wp M (Py.file o) Q s := by
  refine wp_inner hD hs (fun r fs' hstep hrel ↦ ?_) ho
  obtain rfl := hstep.readOnly hread
  exact ⟨hs.safe, fun s' ↦ h r s' hstep hrel⟩

/-! ## Temporary files -/

/-- Only temporary files that did not exist before are different. -/
def Grown (fs fs' : FileSystem) : Prop :=
  ∀ p, (fs p).isSome ∨ (∀ n, p ≠ .edge (.temporary n)) → fs' p = fs p

namespace Grown

variable {fs' fs'' : FileSystem}

theorem refl (fs : FileSystem) : Grown fs fs := fun _ _ ↦ rfl

theorem trans (h : Grown fs fs') (h' : Grown fs' fs'') : Grown fs fs'' := by
  intro p hp
  have hp' := h p hp
  exact (h' p (hp.imp_left fun hsome ↦ hp' ▸ hsome)).trans hp'

theorem live (h : Grown fs fs') : fs' livePath = fs livePath := h _ (.inr (by simp [livePath]))

theorem journal (h : Grown fs fs') : fs' journalPath = fs journalPath :=
  h _ (.inr (by simp [journalPath]))

theorem journalOk (h : Grown fs fs') (hok : JournalOk fs) : JournalOk fs' :=
  hok.congr h.live h.journal

theorem kept {p : Path} {text : String} (h : Grown fs fs') (hp : fs p = some text) :
    fs' p = some text := (h p (.inl (hp ▸ rfl))).trans hp

theorem update (h : Grown fs fs') {n : ℕ} (hn : fs (.edge (.temporary n)) = none)
    (v : Option String) : Grown fs (Function.update fs' (.edge (.temporary n)) v) := by
  intro p hp
  have hne : p ≠ .edge (.temporary n) := by
    rintro rfl
    rcases hp with hp | hp
    · simp [hn] at hp
    · exact hp n rfl
  rw [Function.update_of_ne hne]
  exact h p hp

end Grown

/-- Remove a temporary file that was not there in `fs₀`. -/
theorem wp_unlinkTemporary (hD : W.Frame D E) {fs₀ : FileSystem} {n : ℕ}
    (hn : fs₀ (.edge (.temporary n)) = none) (hgrown : Grown fs₀ fs) (hs : W.Stage D fs s)
    {Q : Except Exc Unit → σ → Prop}
    (hok : ∀ fs' s', Grown fs₀ fs' → W.Stage D fs' s' → Q (.ok ()) s')
    (herror : ∀ fs' s', ¬W.reliable → Grown fs₀ fs' → W.Stage E fs' s' → Q (.error .osError) s') :
    wp M (Py.file (.unlink (.edge (.temporary n)))) Q s := by
  refine wp_minor hD hs fun r fs' hstep hrel ↦ ?_
  cases r with
  | ok _ =>
    obtain rfl : fs' = _ := hstep
    refine ⟨fun hstrict ↦ ?_, fun s' ↦ hok _ s' (hgrown.update hn none)⟩
    exact (hs.safe hstrict).congr (Function.update_of_ne (by simp [livePath]) _ _)
      (Function.update_of_ne (by simp [journalPath]) _ _)
  | error x =>
    obtain ⟨hx, rfl⟩ : x = .osError ∧ fs' = fs := hstep
    subst hx
    exact ⟨hs.safe, fun s' ↦ herror _ s' (fun h ↦ hrel h trivial) hgrown⟩

/-- Remove a temporary file while an exception is on its way. -/
theorem wp_removeAndRaise (hE : W.Frame E E) {fs₀ : FileSystem} {n : ℕ}
    (hn : fs₀ (.edge (.temporary n)) = none) (hgrown : Grown fs₀ fs) (hs : W.Stage E fs s)
    {Q : Except Exc Unit → σ → Prop}
    (h : ∀ fs' s', Grown fs₀ fs' → W.Stage E fs' s' → Q (.error .osError) s') :
    wp M (do
      Py.file (.unlink (.edge (.temporary n)))
      Py.raise .osError : Py Unit) Q s := by
  rw [wp_bind]
  exact wp_unlinkTemporary hE hn hgrown hs h fun fs' s' _ ↦ h fs' s'

theorem wp_privateTemporary (hD : W.Frame D E) (hs : W.Stage D fs s) {text : String}
    {Q : Except Exc Path → σ → Prop}
    (hok : ∀ n fs' s', fs (.edge (.temporary n)) = none →
      fs' = Function.update fs (.edge (.temporary n)) (some text) → W.Stage D fs' s' →
      Q (.ok (.edge (.temporary n))) s')
    (herror : ∀ fs' s', ¬W.reliable → Grown fs fs' → W.Stage E fs' s' → Q (.error .osError) s') :
    wp M (privateTemporary text) Q s := by
  unfold privateTemporary
  rw [wp_bind]
  refine wp_minor hD hs fun r fs₁ hstep hrel ↦ ?_
  cases r with
  | error x =>
    obtain ⟨rfl, rfl⟩ : x = .osError ∧ fs₁ = fs := hstep
    exact ⟨hs.safe, fun s' ↦ herror _ s' (fun h ↦ hrel h trivial) (.refl _)⟩
  | ok n =>
  obtain ⟨hn, rfl⟩ : fs (.edge (.temporary n)) = none
    ∧ fs₁ = Function.update fs (.edge (.temporary n)) (some "") := hstep
  have hnew : ∀ v, Grown fs (Function.update fs (.edge (.temporary n)) v) := fun v ↦
    (Grown.refl fs).update hn v
  refine ⟨fun h ↦ (hnew _).journalOk (hs.safe h), fun s₁ hs₁ ↦ ?_⟩
  rw [andThen_ok, wp_bind, wp_tryCatch]
  -- whatever fails from here on removes the file and raises
  have hcleanup : ∀ fs' s', ¬W.reliable → Grown fs fs' → W.Stage E fs' s' →
      wp M (do
        Py.file (.unlink (.edge (.temporary n)))
        Py.raise .osError : Py Unit)
        (andThen M (fun _ ↦ pure (Path.edge (.temporary n))) Q) s' :=
    fun fs' s' hrel' hgrown hs' ↦ wp_removeAndRaise hD.after hn hgrown hs'
      fun fs'' s'' hg hs'' ↦ herror fs'' s'' hrel' hg hs''
  rw [wp_bind]
  refine wp_minor_same hD hs₁ fun r s₂ hstep hrel₂ hs₂ ↦ ?_
  cases r with
  | error x =>
    obtain rfl : x = .osError := hstep.1
    exact hcleanup _ s₂ (fun h ↦ hrel₂ h trivial) (hnew _) hs₂
  | ok _ =>
  rw [andThen_ok, wp_bind]
  refine wp_minor hD hs₂ fun r fs₃ hstep hrel₃ ↦ ?_
  cases r with
  | error x =>
    obtain ⟨rfl, rest, rfl⟩ : x = .osError ∧ ∃ rest, fs₃ = Function.update _ _ rest := hstep
    rw [Function.update_idem]
    exact ⟨fun h ↦ (hnew _).journalOk (hs.safe h), fun s₃ hs₃ ↦
      hcleanup _ s₃ (fun h ↦ hrel₃ h trivial) (hnew _) hs₃⟩
  | ok _ =>
  obtain rfl : fs₃ = Function.update _ _ _ := hstep
  rw [Function.update_idem]
  refine ⟨fun h ↦ (hnew _).journalOk (hs.safe h), fun s₃ hs₃ ↦ ?_⟩
  rw [andThen_ok]
  refine wp_minor_same hD hs₃ fun r s₄ hstep hrel₄ hs₄ ↦ ?_
  cases r with
  | error x =>
    obtain rfl : x = .osError := hstep.1
    exact hcleanup _ s₄ (fun h ↦ hrel₄ h trivial) (hnew _) hs₄
  | ok _ => exact hok n _ s₄ hn rfl hs₄

/-- **Writing a file atomically**: the replacement takes `D` to `D'`, and an exception leaves the
file as it was or as it is going to be. -/
theorem wp_atomicWrite (hD : W.Frame D E) (hD' : W.Frame D' E') {target : Path} {text : String}
    (hreplace : ∀ n, W.Turns (.file (.replace (.edge (.temporary n)) target)) D D' E)
    (hsync : W.Turns (.file (.fsyncDirectory .edgeRoot)) D' D' E') (hs : W.Stage D fs s) (ht : ∀ n, target ≠ .edge (.temporary n))
    (hsafe : W.strict → JournalOk (Function.update fs target (some text)))
    {Q : Except Exc Unit → σ → Prop}
    (hok : ∀ fs' s', Grown (Function.update fs target (some text)) fs' → W.Stage D' fs' s' →
      Q (.ok ()) s')
    (hbefore : ∀ fs' s', ¬W.reliable → Grown fs fs' → W.Stage E fs' s' → Q (.error .osError) s')
    (hafter : ∀ fs' s', ¬W.reliable → Grown (Function.update fs target (some text)) fs' →
      W.Stage E' fs' s' → Q (.error .osError) s') : wp M (atomicWrite target text) Q s := by
  unfold atomicWrite
  rw [wp_bind]
  refine wp_privateTemporary hD hs (fun n fs₁ s₁ hn hfs₁ hs₁ ↦ ?_) hbefore
  have hgrown₁ : Grown fs fs₁ := hfs₁ ▸ (Grown.refl fs).update hn _
  have hbase : Function.update fs target (some text) (.edge (.temporary n)) = none := by
    rw [Function.update_of_ne (ht n).symm, hn]
  rw [andThen_ok, wp_tryCatch, wp_bind]
  refine wp_file hD.stable (hreplace n) hs₁ fun r fs₂ hstep hrel ↦ ?_
  cases r with
  | error x =>
    obtain ⟨rfl, rfl⟩ : x = .osError ∧ fs₂ = fs₁ := hstep
    have hpossible : FileOp.Possible fs₂ (.replace (.edge (.temporary n)) target) := by
      simp [FileOp.Possible, hfs₁]
    exact ⟨hs₁.safe, fun s₂ hs₂ ↦ wp_removeAndRaise hD.after hn hgrown₁ hs₂ fun fs' s' ↦
      hbefore fs' s' fun h ↦ hrel h hpossible⟩
  | ok _ =>
  obtain ⟨text', htext', rfl⟩ : ∃ text', fs₁ (.edge (.temporary n)) = some text'
    ∧ fs₂ = Function.update (Function.update fs₁ target (some text')) _ none := hstep
  obtain rfl : text = text' := by simpa [hfs₁] using htext'
  have hgrown₂ : Grown (Function.update fs target (some text))
      (Function.update (Function.update fs₁ target (some text)) (.edge (.temporary n)) none) := by
    refine Grown.update (fun p hp ↦ ?_) hbase none
    by_cases hpt : p = target
    · rw [hpt, Function.update_self, Function.update_self]
    · rw [Function.update_of_ne hpt] at hp ⊢
      rw [Function.update_of_ne hpt]
      exact hgrown₁ p hp
  refine ⟨fun h ↦ hgrown₂.journalOk (hsafe h), fun s₂ hs₂ ↦ ?_⟩
  rw [andThen_ok]
  refine wp_file_same hD'.stable hsync hs₂ fun r s₃ hstep hrel₃ hs₃ ↦ ?_
  cases r with
  | error x =>
    obtain rfl : x = .osError := hstep.1
    exact wp_removeAndRaise hD'.after hbase hgrown₂ hs₃ fun fs' s' ↦
      hafter fs' s' fun h ↦ hrel₃ h trivial
  | ok _ => exact hok _ s₃ hgrown₂ hs₃

/-! ## The journal -/

theorem wp_writeTransaction (hD : W.Frame D E) (hD' : W.Frame D' E')
    (hreplace : ∀ n, W.Turns (.file (.replace (.edge (.temporary n)) journalPath)) D D' E)
    (hsync : W.Turns (.file (.fsyncDirectory .edgeRoot)) D' D' E') (hs : W.Stage D fs s) {tx : EdgeTransaction}
    (hsafe : W.strict → JournalOk (Function.update fs journalPath (some tx.text)))
    {Q : Except Exc Unit → σ → Prop}
    (hok : ∀ fs' s', Grown (Function.update fs journalPath (some tx.text)) fs' →
      W.Stage D' fs' s' → Q (.ok ()) s')
    (hbefore : ∀ x fs' s', ¬W.reliable → x.isUncertain = false → Grown fs fs' →
      W.Stage E fs' s' → Q (.error x) s')
    (hafter : ∀ x fs' s', ¬W.reliable → x.isUncertain = false →
      Grown (Function.update fs journalPath (some tx.text)) fs' → W.Stage E' fs' s' →
      Q (.error x) s') : wp M (writeTransaction tx) Q s := by
  rw [writeTransaction, Py.except, wp_tryCatch]
  exact wp_atomicWrite hD hD' hreplace hsync hs (by simp [journalPath]) hsafe hok
    (fun fs' s' hrel ↦ hbefore _ fs' s' hrel rfl) fun fs' s' hrel ↦ hafter _ fs' s' hrel rfl

theorem wp_removeTransactionJournal (hD : W.Stable D)
    (hunlink : W.Turns (.file (.unlink journalPath)) D D' E) (hD' : W.Stable D')
    (hsync : W.Turns (.file (.fsyncDirectory .edgeRoot)) D' D' E') (hs : W.Stage D fs s) {Q : Except Exc Unit → σ → Prop}
    (hok : ∀ s', W.Stage D' (Function.update fs journalPath none) s' → Q (.ok ()) s')
    (hbefore : ∀ x s', ¬W.reliable → x.isUncertain = true → W.Stage E fs s' → Q (.error x) s')
    (hafter : ∀ x s', ¬W.reliable → x.isUncertain = true →
      W.Stage E' (Function.update fs journalPath none) s' → Q (.error x) s') :
    wp M removeTransactionJournal Q s := by
  have hlive : Function.update fs journalPath none livePath = fs livePath :=
    Function.update_of_ne (by simp [livePath, journalPath]) _ _
  have hsafe : W.strict → JournalOk (Function.update fs journalPath none) := fun h ↦
    .of_noJournal (fun text ht ↦ (hs.safe h).live text (hlive ▸ ht)) (Function.update_self ..)
  rw [removeTransactionJournal, Py.except, wp_tryCatch, wp_bind]
  refine wp_file hD hunlink hs fun r fs₁ hstep hrel ↦ ?_
  cases r with
  | error x =>
    obtain ⟨rfl, rfl⟩ : x = .osError ∧ fs₁ = fs := hstep
    exact ⟨hs.safe, fun s' ↦ hbefore _ s' (fun h ↦ hrel h trivial) rfl⟩
  | ok _ =>
  obtain rfl : fs₁ = Function.update fs journalPath none := hstep
  refine ⟨hsafe, fun s₁ hs₁ ↦ ?_⟩
  rw [andThen_ok]
  refine wp_file_same hD' hsync hs₁ fun r s₂ hstep hrel₂ hs₂ ↦ ?_
  cases r with
  | error x =>
    obtain rfl : x = .osError := hstep.1
    exact hafter _ s₂ (fun h ↦ hrel₂ h trivial) rfl hs₂
  | ok _ => exact hok s₂ hs₂

/-! ## Reads -/

theorem keeps_same (hD : W.Framed D) {o : FileOp} (fs : FileSystem)
    (hread : o.ReadOnly := by trivial) (ho : o.Inner := by trivial) :
    M.Keeps (W.Stage D fs) (.file o) := by
  intro s s₁ r s₂ hs hrely hstep
  have hs₁ := hs.of_rely hD.stable hrely
  obtain ⟨hheld, hstepped, -, hguar⟩ := W.file s₁ o r s₂ hs₁.held ho hstep
  have hfiles : W.files s₂ = fs := (hstepped.readOnly hread).trans hs₁.files
  have hturned := hD.turns (.file o) ho s₁ r s₂ hs₁.held hs₁.rest hstep
  refine ⟨hguar fun h ↦ hfiles ▸ hs.safe h, hheld, hfiles, hs.safe, ?_⟩
  cases r <;> exact hturned

end Ownership

end Heimdall
