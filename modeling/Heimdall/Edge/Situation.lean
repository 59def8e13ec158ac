import Heimdall.Edge.Outcome

/-!
# The phases of `apply`

`Situation` is what the history of a call says at a phase, and the rules of `Ownership` carry it through
the file routines. Commands and probes keep a situation or leave the mark of its phase; what
`restore` makes of a switched file is followed to its end here.
-/

namespace Heimdall

open Effect

/-- A call of `apply` runs alone. -/
abbrev applySetting : Setting ApplyRun Op Ans Exc := .alone applyEnv fun _ _ _ _ ↦ True

def applyOwnership : Ownership applySetting where
  files := ApplyRun.files
  held _ := True
  strict := False
  reliable := False
  rely _ _ _ h := ⟨trivial, congrArg ApplyRun.files h.symm⟩
  file _ _ _ _ _ _ h := ⟨trivial, h.1, fun hf ↦ hf.elim, fun _ ↦ trivial⟩
  quiet s o r s' _ ho h := by
    refine ⟨trivial, ?_, fun _ ↦ trivial⟩
    cases o
    case file => exact ho.elim
    all_goals cases r <;> first
      | exact h.1
      | exact h.1.2

/-! ## Situations -/

/-- What the history says at a phase. -/
structure Situation (φ : ApplyPhase) (loaded : Option (Option String) → Prop) (finalized : Bool)
    (marks : ApplyMarks) (s : ApplyRun) : Prop where
  phase : s.history.phase = φ
  loaded : loaded s.history.reloaded
  finalized : s.history.finalized = finalized
  marks : s.history.marks = marks

namespace Situation

variable {φ : ApplyPhase} {loaded : Option (Option String) → Prop} {finalized : Bool}
  {marks : ApplyMarks} {fs : FileSystem} {s s' : ApplyRun} {live : String}

theorem stable (D : ApplyRun → Prop) : applyOwnership.Stable D := fun _ _ _ h hrely ↦ hrely ▸ h

/-- A file operation advances the phase or leaves a mark. -/
theorem turns (o : FileOp) : applyOwnership.Turns (.file o) (Situation φ loaded finalized marks)
    (Situation (φ.next o) loaded finalized marks)
    (Situation φ loaded finalized (marks.after φ (.file o))) := by
  rintro s r s' - ⟨rfl, hloaded, rfl, rfl⟩ ⟨-, hhistory⟩
  cases r with
  | ok a =>
    refine ⟨?_, ?_, ?_, ?_⟩ <;> rw [hhistory]
    exacts [rfl, hloaded, rfl, rfl]
  | error x =>
    have hnot : x.handledIn (.file o) = false := rfl
    refine ⟨?_, ?_, ?_, ?_⟩ <;> rw [hhistory]
    exacts [rfl, hloaded, rfl, rfl]

end Situation

/-- The marks after an exception at a phase, from an operation on a temporary file. -/
def ApplyPhase.broken (φ : ApplyPhase) : ApplyMarks :=
  ({} : ApplyMarks).after φ (.file .mkstemp)

/-- The marks after an exception at a phase, from a quiet operation or the heartbeat. -/
def ApplyPhase.disturbed (φ : ApplyPhase) : ApplyMarks := ({} : ApplyMarks).after φ .timeLeft

/-- The five kinds of minor operations. -/
theorem FileOp.Minor.cases (P : FileOp → Prop) (hmkstemp : P .mkstemp)
    (hwrite : ∀ n text, P (.writeText (.edge (.temporary n)) text))
    (hchmod : ∀ n, P (.chmod (.edge (.temporary n))))
    (hfsync : ∀ n, P (.fsync (.edge (.temporary n))))
    (hunlink : ∀ n, P (.unlink (.edge (.temporary n)))) {o : FileOp} (ho : o.Minor) : P o := by
  cases o
  case mkstemp => exact hmkstemp
  case writeText p text =>
    obtain ⟨n, rfl⟩ := ho
    exact hwrite n text
  case chmod p =>
    obtain ⟨n, rfl⟩ := ho
    exact hchmod n
  case fsync p =>
    obtain ⟨n, rfl⟩ := ho
    exact hfsync n
  case unlink p =>
    obtain ⟨n, rfl⟩ := ho
    exact hunlink n
  all_goals exact ho.elim

theorem ApplyPhase.next_minor (φ : ApplyPhase) {o : FileOp} (ho : o.Minor) : φ.next o = φ := by
  refine FileOp.Minor.cases (fun o ↦ φ.next o = φ) ?_ ?_ ?_ ?_ ?_ ho
  all_goals
    intros
    cases φ <;> rfl

theorem ApplyPhase.broken_minor (φ : ApplyPhase) {o : FileOp} (ho : o.Minor) :
    ({} : ApplyMarks).after φ (.file o) = φ.broken ∧ φ.broken.after φ (.file o) = φ.broken := by
  refine FileOp.Minor.cases (fun o ↦ ({} : ApplyMarks).after φ (.file o) = φ.broken
    ∧ φ.broken.after φ (.file o) = φ.broken) ?_ ?_ ?_ ?_ ?_ ho
  all_goals
    intros
    cases φ <;> exact ⟨rfl, rfl⟩

/-- The operations of commands and probes, the heartbeat and the fence. -/
def Op.Mild : Op → Prop
  | .callback .heartbeat | .callback .fence => True
  | o => o.Quiet

theorem ApplyPhase.disturbed_mild (φ : ApplyPhase) {o : Op} (ho : o.Mild) :
    ({} : ApplyMarks).after φ o = φ.disturbed ∧ φ.disturbed.after φ o = φ.disturbed := by
  cases o
  case callback c =>
    cases c
    case finalize => exact ho.elim
    all_goals cases φ <;> exact ⟨rfl, rfl⟩
  case file => exact ho.elim
  case routes => exact ho.elim
  case deployments => exact ho.elim
  case runtimes => exact ho.elim
  case reconciliations => exact ho.elim
  case source => exact ho.elim
  case onRuntimeReady => exact ho.elim
  case reconciliationRequired => exact ho.elim
  case setReconciliationRequired => exact ho.elim
  case applyEntered => exact ho.elim
  case applyLeft => exact ho.elim
  all_goals cases φ <;> exact ⟨rfl, rfl⟩

/-- A failure that the manager reports, and not as uncertain. -/
def Exc.Reported : Exc → Prop
  | .edgeRuntime failure => failure.uncertain = false
  | _ => False

theorem Exc.Foreign.isUncertain {x : Exc} (hx : x.Foreign) : x.isUncertain = false := by
  cases x
  case edgeRuntime => exact hx.elim
  all_goals rfl

theorem Exc.Reported.isUncertain {x : Exc} (hx : x.Reported) : x.isUncertain = false := by
  cases x
  case edgeRuntime => exact hx
  all_goals exact hx.elim

namespace Situation

variable {φ : ApplyPhase} {loaded : Option (Option String) → Prop} {finalized : Bool}
  {marks : ApplyMarks} {fs : FileSystem} {s s' : ApplyRun} {live : String}

/-- The minor operations keep a situation until one of them fails. -/
theorem frame : applyOwnership.Frame (Situation φ loaded finalized {})
    (Situation φ loaded finalized φ.broken) where
  stable := stable _
  stable' := stable _
  turns o ho := by
    have h : applyOwnership.Turns (.file o) (Situation φ loaded finalized {}) _ _ := turns o
    rwa [φ.next_minor ho, (φ.broken_minor ho).1] at h
  failed o ho := by
    have h : applyOwnership.Turns (.file o) (Situation φ loaded finalized φ.broken) _ _ := turns o
    rwa [φ.next_minor ho, (φ.broken_minor ho).2] at h

/-- A mild operation keeps a situation, or leaves its mark with an exception of the world. -/
theorem mild_step {o : Op} (ho : o.Mild) (hlive : fs livePath = some live)
    (hloaded : loaded (some (some live)))
    (hs : applyOwnership.Stage (Situation φ loaded finalized marks) fs s) {r : Except Exc (Ans o)}
    (hstep : applyEnv s o r s') :
    match r with
    | .ok _ => applyOwnership.Stage (Situation φ loaded finalized marks) fs s'
    | .error x => x.Foreign ∧ applyOwnership.Stage (Situation φ loaded finalized
        (if x.handledIn o then marks else marks.after φ o)) fs s' := by
  obtain ⟨hreaction, hhistory⟩ := hstep
  obtain ⟨-, hfiles, -, rfl, hl, rfl, rfl⟩ := hs
  change s.files = fs at hfiles
  have hfiles' : s'.files = s.files ∧ ∀ x, r = .error x → x.Foreign := by
    cases o
    case file => exact ho.elim
    all_goals cases r <;> first
      | exact ⟨hreaction, fun x hx ↦ by cases hx⟩
      | exact ⟨hreaction.2, fun x hx ↦ by cases hx; exact hreaction.1⟩
  cases r with
  | error x =>
    refine ⟨hfiles'.2 x rfl, trivial, hfiles'.1.trans hfiles, False.elim, ?_⟩
    have hafter := hhistory.trans (s.history.after_error (s.files livePath) o x)
    cases hx : x.handledIn o <;> simp only [hx] at hafter <;>
      refine ⟨?_, ?_, ?_, ?_⟩ <;> rw [hafter] <;> first | rfl | exact hl
  | ok a =>
    refine ⟨trivial, hfiles'.1.trans hfiles, False.elim, ?_⟩
    have hafter : s'.history = s.history
        ∨ s'.history = { s.history with reloaded := some (s.files livePath) } := by
      rw [hhistory]
      cases o
      case callback c =>
        cases c
        case finalize => exact ho.elim
        all_goals exact .inl rfl
      case poll c =>
        cases c
        case reload container =>
          cases a
          case exited result =>
            simp only [ApplyHistory.after]
            split
            · exact .inr rfl
            · exact .inl rfl
          all_goals exact .inl rfl
        all_goals exact .inl rfl
      case file => exact ho.elim
      all_goals exact .inl rfl
    rcases hafter with hafter | hafter
    · refine ⟨?_, ?_, ?_, ?_⟩ <;> rw [hafter]
      exact hl
    · refine ⟨?_, ?_, ?_, ?_⟩ <;> rw [hafter]
      rw [hfiles, hlive]
      exact hloaded

/-- A mild operation whose exceptions leave the mark of the phase. -/
theorem mild_tracks {o : Op} (ho : o.Mild) (hlive : fs livePath = some live)
    (hloaded : loaded (some (some live))) (hhandled : ∀ x : Exc, x.handledIn o = false) :
    applySetting.Tracks (applyOwnership.Stage (Situation φ loaded finalized {}) fs)
      (applyOwnership.Stage (Situation φ loaded finalized φ.disturbed) fs) Exc.Reported Exc.Foreign
      o := by
  intro s s₁ r s₂ hs hrely hstep
  obtain rfl : s = s₁ := hrely
  have h := mild_step ho hlive hloaded hs hstep
  refine ⟨trivial, ?_⟩
  cases r with
  | ok a => exact h
  | error x =>
    obtain ⟨hx, hs'⟩ := h
    rw [hhandled, (φ.disturbed_mild ho).1] at hs'
    exact .inr ⟨hx, hs'⟩

theorem handled_tracks {o : Op} (ho : o.Mild) (hlive : fs livePath = some live)
    (hloaded : loaded (some (some live)))
    (hhandled : ∀ x : Exc, x.handledIn o = true ↔ x = .osError) :
    applySetting.Tracks (applyOwnership.Stage (Situation φ loaded finalized {}) fs)
      (applyOwnership.Stage (Situation φ loaded finalized φ.disturbed) fs)
      (fun x ↦ x = .osError ∨ x.Reported) (fun x ↦ x.Foreign ∧ x ≠ .osError) o := by
  intro s s₁ r s₂ hs hrely hstep
  obtain rfl : s = s₁ := hrely
  have h := mild_step ho hlive hloaded hs hstep
  refine ⟨trivial, ?_⟩
  cases r with
  | ok a => exact h
  | error x =>
    obtain ⟨hx, hs'⟩ := h
    by_cases hos : x = .osError
    · rw [if_pos ((hhandled x).mpr hos)] at hs'
      exact .inl ⟨.inl hos, hs'⟩
    · rw [if_neg (mt (hhandled x).mp hos), (φ.disturbed_mild ho).1] at hs'
      exact .inr ⟨⟨hx, hos⟩, hs'⟩

theorem quietOps (hlive : fs livePath = some live) (hloaded : loaded (some (some live))) :
    QuietOps applySetting (applyOwnership.Stage (Situation φ loaded finalized {}) fs)
      (applyOwnership.Stage (Situation φ loaded finalized φ.disturbed) fs) Exc.Reported
      Exc.Foreign where
  launch c := handled_tracks trivial hlive hloaded fun x ↦ by cases x <;> simp [Exc.handledIn]
  poll c := mild_tracks trivial hlive hloaded fun _ ↦ rfl
  terminate c := mild_tracks trivial hlive hloaded fun _ ↦ rfl
  terminate' c s s₁ r s₂ hs hrely hstep := by
    obtain rfl : s = s₁ := hrely
    have hmild : Op.Mild (.terminate c) := trivial
    have h := mild_step hmild hlive hloaded hs hstep
    refine ⟨trivial, ?_⟩
    cases r with
    | ok a => exact .inl ⟨⟨a, rfl⟩, h⟩
    | error x =>
      obtain ⟨hx, hs'⟩ := h
      have hmarks : φ.disturbed.after φ (.terminate c) = φ.disturbed := (φ.disturbed_mild hmild).2
      simp only [Exc.handledIn, Bool.false_eq_true, if_false, hmarks] at hs'
      exact .inr ⟨x, rfl, .inr ⟨hx, hs'⟩⟩
  http t := handled_tracks trivial hlive hloaded fun x ↦ by cases x <;> simp [Exc.handledIn]
  timeLeft := mild_tracks trivial hlive hloaded fun _ ↦ rfl
  hard_ne x result hx := by
    rintro rfl
    exact hx

end Situation

/-! ## Commands of the manager -/

namespace EdgeConfigManager

variable (m : EdgeConfigManager)

end EdgeConfigManager

namespace Situation

variable {φ : ApplyPhase} {loaded : Option (Option String) → Prop} {finalized : Bool}
  {fs : FileSystem} {s : ApplyRun} {live : String}

end Situation

/-! ## Restoring -/

section Ends

variable {fs₀ fs : FileSystem} {rendered live₀ : String} {φ : ApplyPhase}
  {loaded : Option (Option String) → Prop} {finalized : Bool} {s : ApplyRun} {x : Exc}

theorem NewJournal.congr {fs' : FileSystem} (h : NewJournal fs₀ fs)
    (hsame : fs' journalPath = fs journalPath) : NewJournal fs₀ fs' := by
  obtain ⟨text, htext, hne⟩ := h
  exact ⟨text, hsame.trans htext, hne⟩

theorem FileOp.Raises.foreign {o : FileOp} (h : o.Raises x) : x.Foreign := by
  cases o <;> first
    | obtain rfl : x = .osError := h
      trivial
    | obtain rfl | rfl : x = .osError ∨ x = .unicode := h
      all_goals trivial

end Ends

end Heimdall
