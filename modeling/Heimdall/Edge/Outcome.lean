import Heimdall.Edge.Apply

/-!
# How `apply` ends

One call of `apply` in a world where every operation may fail: file operations as the operating
system lets them, everything else with any exception that is not one the manager raises itself. The
callbacks are operations here.

## The history of a call

Which failures do harm depends on how far the call has come, and that is decided by the
replacements that have succeeded: the journal written, the live file switched, the live file
restored, the journal rewritten as committed, the journal removed. `ApplyHistory` records this
phase, what nginx was last reloaded on and whether `finalize` has returned, and it marks the
exceptions that no clause of `apply` can make up for.
-/

namespace Heimdall

open Effect

/-- How far a call has come. -/
inductive ApplyPhase where
  /-- No journal of this call is written. -/
  | idle
  /-- The journal is written, the live file is not switched. -/
  | journaled
  | switched
  /-- The live file has been written back under the journal. -/
  | restored
  /-- The journal has been removed after the live file was written back. -/
  | undone
  /-- The journal has been rewritten as committed. -/
  | committed
  /-- The committed journal has been removed. -/
  | cleared
deriving DecidableEq

/-- The phase after a successful file operation. -/
def ApplyPhase.next : ApplyPhase → FileOp → ApplyPhase
  | .idle, .replace _ (.edge .transactionJournal) => .journaled
  | .journaled, .replace _ (.edge .publicRoutes) => .switched
  | .switched, .replace _ (.edge .publicRoutes) => .restored
  | .switched, .replace _ (.edge .transactionJournal) => .committed
  | .restored, .unlink (.edge .transactionJournal) => .undone
  | .committed, .unlink (.edge .transactionJournal) => .cleared
  | φ, _ => φ

/-- An exception of this operation leaves the files switched or journaled, and `apply` does not
turn it into an uncertain failure. -/
def ApplyPhase.fatal : ApplyPhase → Op → Bool
  | .journaled, _ => true
  | .switched, .file (.fsyncDirectory _) => false
  | .switched, .file _ => true
  | .restored, .file (.unlink (.edge .transactionJournal)) => false
  | .restored, _ => true
  | .committed, .file (.unlink (.edge .transactionJournal)) => false
  | .committed, _ => true
  | _, _ => false

/-- The exceptions that are handled where they are raised: a child process that cannot be started is
a failed command, a request that fails in the operating system is asked again. -/
def Exc.handledIn : Op → Exc → Bool
  | .launch _, .osError | .http _, .osError => true
  | _, _ => false

/-- The exceptions so far that matter for how the call ends. -/
structure ApplyMarks where
  /-- One at a phase where it is fatal. -/
  faulty : Bool := false
  /-- One after the committed journal was removed. -/
  late : Bool := false
  /-- One from reading the journal of an earlier call, and none from the lock since. -/
  doubted : Bool := false
deriving DecidableEq

/-- The marks after an exception. -/
def ApplyMarks.after (marks : ApplyMarks) (φ : ApplyPhase) (o : Op) : ApplyMarks where
  faulty := marks.faulty || φ.fatal o
  late := marks.late || φ == .cleared
  doubted := match o with
    | .file (.readText (.edge .transactionJournal)) => true
    | .file .flockUnlock | .file .closeLock => false
    | _ => marks.doubted

/-- What has happened in a call. -/
structure ApplyHistory where
  phase : ApplyPhase := .idle
  /-- The live content nginx was last reloaded on. -/
  reloaded : Option (Option String) := none
  /-- `finalize` has returned. -/
  finalized : Bool := false
  marks : ApplyMarks := {}

/-- The history after an operation, with the live content before it. -/
def ApplyHistory.after (h : ApplyHistory) (live : Option String) (o : Op)
    (r : Except Exc (Ans o)) : ApplyHistory :=
  match o, r with
  | .file f, .ok _ => { h with phase := h.phase.next f }
  | .poll (.reload _), .ok (.exited result) =>
    if result.returncode = 0 then { h with reloaded := some live } else h
  | .callback .finalize, .ok _ => { h with finalized := true }
  | _, .ok _ => h
  | o, .error x => if x.handledIn o then h else { h with marks := h.marks.after h.phase o }

theorem ApplyHistory.after_error (h : ApplyHistory) (live : Option String) (o : Op) (x : Exc) :
    h.after live o (.error x)
      = if x.handledIn o then h else { h with marks := h.marks.after h.phase o } := by
  cases o
  case poll c => cases c <;> rfl
  case callback c => cases c <;> rfl
  all_goals rfl

/-- The files and the history. -/
structure ApplyRun where
  files : FileSystem
  history : ApplyHistory := {}

/-- The exceptions of the world: none that the manager raises itself. -/
def Exc.Foreign : Exc → Prop
  | .edgeRuntime _ | .commandExecution _ => False
  | _ => True

/-- The reaction of the world to one operation. -/
def ApplyRun.Reaction (fs : FileSystem) (o : Op) (r : Except Exc (Ans o)) (fs' : FileSystem) : Prop :=
  match o, r with
  | .file f, r => FileOp.Step fs f r fs'
  | _, .ok _ => fs' = fs
  | _, .error x => x.Foreign ∧ fs' = fs

def applyEnv : Env ApplyRun Op Ans Exc := fun s o r s' ↦
  ApplyRun.Reaction s.files o r s'.files
    ∧ s'.history = s.history.after (s.files livePath) o r

/-- The callbacks as operations. -/
def callbackOps : EdgeCallbacks where
  heartbeat := Prog.op (Op.callback .heartbeat)
  fence := Prog.op (Op.callback .fence)
  finalize := Prog.op (Op.callback .finalize)

/-! ## The contract -/

variable (fs₀ : FileSystem) (routes : List EdgeRouteTarget)

/-- No exception came where it does harm. After the journal is removed it only does when the call
changed the file. -/
structure ApplyMarks.Harmless (marks : ApplyMarks) : Prop where
  faulty : marks.faulty = false
  doubted : marks.doubted = false
  late : marks.late = true → ∀ rendered, renderEdgeRoutes routes = .ok rendered →
    fs₀ livePath = some rendered

/-- A journal that was not there before the call. -/
def NewJournal (fs : FileSystem) : Prop :=
  ∃ text, fs journalPath = some text ∧ fs₀ journalPath ≠ some text

/-! ## Ends -/

variable {fs₀ routes} {rendered live₀ : String}

/-- The ways a call can end, with what is true then. -/
inductive ApplyEnd (fs₀ : FileSystem) (rendered : String) : Except Exc Unit → ApplyRun → Prop
  /-- Nothing has been written. -/
  | untouched {x : Exc} {s : ApplyRun} (phase : s.history.phase = .idle)
      (marks : s.history.marks = {}) (live : s.files livePath = fs₀ livePath)
      (journal : s.files journalPath = fs₀ journalPath)
      (reloaded : s.history.reloaded = none ∨ s.history.reloaded = some (fs₀ livePath))
      (hx : x.isUncertain = false) : ApplyEnd fs₀ rendered (.error x) s
  /-- The journal that was there could not be read. -/
  | doubted {x : Exc} {s : ApplyRun} (phase : s.history.phase = .idle)
      (marks : s.history.marks = { doubted := true }) (live : s.files livePath = fs₀ livePath)
      (journal : s.files journalPath = fs₀ journalPath)
      (reloaded : s.history.reloaded = none ∨ s.history.reloaded = some (fs₀ livePath))
      (hjournal : (fs₀ journalPath).isSome) (hx : x.isUncertain = true) :
      ApplyEnd fs₀ rendered (.error x) s
  /-- A fatal exception has come. -/
  | faulty {x : Exc} {s : ApplyRun}
      (phase : s.history.phase ∈ [.journaled, .switched, .restored, .committed])
      (marks : s.history.marks = { faulty := true })
      (journal : NewJournal fs₀ s.files)
      (hx : x.isUncertain = false) : ApplyEnd fs₀ rendered (.error x) s
  /-- The failure is uncertain, and the journal is there. -/
  | uncertain {x : Exc} {s : ApplyRun}
      (phase : s.history.phase ∈ [.switched, .restored, .committed]) (marks : s.history.marks = {})
      (journal : NewJournal fs₀ s.files)
      (hx : x.isUncertain = true) : ApplyEnd fs₀ rendered (.error x) s
  /-- The previous content is back. -/
  | undone {x : Exc} {s : ApplyRun} (phase : s.history.phase = .undone)
      (marks : s.history.marks = {}) (live : s.files livePath = fs₀ livePath)
      (reloaded : s.history.reloaded = some (fs₀ livePath))
      (journal : s.files journalPath = none) : ApplyEnd fs₀ rendered (.error x) s
  /-- An exception has come after the end of the transaction. -/
  | late {x : Exc} {s : ApplyRun} (phase : s.history.phase = .cleared)
      (marks : s.history.marks = { late := true }) (live : s.files livePath = some rendered)
      (reloaded : s.history.reloaded = some (some rendered))
      (journal : s.files journalPath = none) : ApplyEnd fs₀ rendered (.error x) s
  | done {s : ApplyRun} (phase : s.history.phase = .cleared) (marks : s.history.marks = {})
      (finalized : s.history.finalized = true) (live : s.files livePath = some rendered)
      (reloaded : s.history.reloaded = some (some rendered))
      (journal : s.files journalPath = none) : ApplyEnd fs₀ rendered (.ok ()) s

end Heimdall
