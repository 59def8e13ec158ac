import Heimdall.Interface

/-!
# The deployment worker

`DeploymentWorker.run_once`: take a job, look at what an earlier attempt may have left behind, run the
deployment, and settle the claim by what came of it. What builds, starts and removes a candidate is
behind the protocol `RuntimeProcessor`; here each of its methods is one operation. A method is called
with the deployment of the claim and, where it needs the lease, with a `RuntimeProgress` of the claim,
so an operation carries the claim.

## Two handlers

A failure is settled in `_handle_failure`, which is called in the body of the `try` statement as well
as in its `except` clauses. What is raised while a failure is settled in the body is a failure of the
body, and is settled once more as an unexpected one.
-/

namespace Heimdall

open Effect

/-- What a worker calls. -/
inductive DeploymentWorkerOp where
  | repository (op : DeploymentOp)
  | recover (claim : DeploymentJobClaim)
  | process (claim : DeploymentJobClaim)
  | cleanupCandidate (claim : DeploymentJobClaim)
  | rollbackCandidate (claim : DeploymentJobClaim)
  | captureDiagnostics (claim : DeploymentJobClaim) (failure : RuntimeFailure)
  | onRuntimeReady (project : Uuid)
  /-- `datetime.now(UTC)`, while the claim is settled. -/
  | now (claim : DeploymentJobClaim)
  /-- The point where a worker is done with a claim; it does nothing. -/
  | finished (claim : DeploymentJobClaim)

namespace DeploymentWorkerOp

abbrev Ans : DeploymentWorkerOp → Type
  | .repository op => op.Ans
  | .recover _ => RecoveryDisposition
  | .captureDiagnostics _ _ => List DiagnosticArtifactDraft
  | .now _ => Time
  | _ => Unit

end DeploymentWorkerOp

/-- A program of the deployment worker. -/
abbrev DeploymentPy (α : Type) : Type :=
  Prog DeploymentWorkerOp DeploymentWorkerOp.Ans Exc α

/-- `datetime.max`, in microseconds since the epoch, which is the resolution of the clock. -/
def datetimeMax : Time := 253402300799999999

/-- `now + delay`, which raises an `OverflowError` beyond the end of the calendar. -/
def addDelay (now delay : Time) : DeploymentPy Time :=
  if datetimeMax < now + delay then .raise .other else .pure (now + delay)

structure DeploymentWorker where
  workerId : String
  leaseDuration : Time
  maxAttempts : ℕ := 3
  retryBaseDelay : Time := 5000000
  diagnosticRetention : Option Time := none
  /-- There is a callback that wakes the routing worker. -/
  onRuntimeReady : Bool := false
  maxAttempts_pos : 1 ≤ maxAttempts

namespace DeploymentWorker

variable (worker : DeploymentWorker)

def perform (o : DeploymentWorkerOp) : DeploymentPy o.Ans := Prog.op o

def repository (o : DeploymentOp) : DeploymentPy o.Ans := perform (.repository o)

/-- `RuntimeProgress.heartbeat` -/
def heartbeat (claim : DeploymentJobClaim) : DeploymentPy Unit := do
  let _ ← repository (.renew claim worker.leaseDuration)

/-- `_succeed` -/
def succeed (claim : DeploymentJobClaim) : DeploymentPy Unit := do
  let deployment ← repository (.succeed claim)
  if worker.onRuntimeReady then
    (perform (.onRuntimeReady deployment.projectId)).tryCatch fun _ ↦ .pure ()
  else .pure ()

/-- `except DeploymentClaimLostError: return`. -/
def ignoreClaimLost (p : DeploymentPy Unit) : DeploymentPy Unit :=
  p.tryCatch fun
    | .deploymentClaimLost => .pure ()
    | x => .raise x

/-- The part of `_handle_failure` that records what is left to do about the deployment. -/
def settle (claim : DeploymentJobClaim) (failure : RuntimeFailure) : DeploymentPy Unit :=
  ignoreClaimLost <|
    if failure.retryable ∧ claim.attempts < worker.maxAttempts then do
      let delay := worker.retryBaseDelay * 2 ^ (claim.attempts - 1)
      let now ← perform (.now claim)
      let availableAt ← addDelay now delay
      let _ ← repository (.retry claim availableAt failure.stage failure.code)
    else do
      let _ ← repository (.fail claim failure.stage failure.code)

/-- The part of `_handle_failure` that keeps diagnostics of a candidate; `False` when the claim was
lost meanwhile. -/
def keepDiagnostics (claim : DeploymentJobClaim) (failure : RuntimeFailure) : DeploymentPy Bool :=
  match worker.diagnosticRetention with
  | none => .pure true
  | some retention =>
    (perform (.rollbackCandidate claim)).handle fun
      | .error _ => .pure true
      | .ok () =>
        Prog.handle (do
          let artifacts ← perform (.captureDiagnostics claim failure)
          repository (.recordDiagnostics claim failure.stage failure.code artifacts retention)) fun
          | .ok () => .pure true
          | .error .deploymentClaimLost => .pure false
          | .error _ => .pure true

/-- The part of `_handle_failure` that removes a candidate and then settles. -/
def cleanUpAndSettle (claim : DeploymentJobClaim) (failure : RuntimeFailure) : DeploymentPy Unit :=
  (perform (.cleanupCandidate claim)).handle fun
    | .ok () => worker.settle claim failure
    | .error .deploymentClaimLost => .pure ()
    | .error _ => worker.settle claim {
        stage := "CLEANUP"
        code := "CANDIDATE_CLEANUP_FAILED"
        retryable := true }

/-- `_handle_failure` -/
def handleFailure (claim : DeploymentJobClaim) (failure : RuntimeFailure) : DeploymentPy Unit :=
  if failure.cleanupCandidate then do
    if ← worker.keepDiagnostics claim failure then worker.cleanUpAndSettle claim failure
    else .pure ()
  else worker.settle claim failure

/-- Run the deployment. -/
def runDeployment (claim : DeploymentJobClaim) : DeploymentPy Unit := do
  perform (.process claim)
  worker.heartbeat claim
  worker.succeed claim

/-- The body of the `try` statement of `run_once`. -/
def runClaim (claim : DeploymentJobClaim) : DeploymentPy Unit :=
  if 1 < claim.attempts then do
    match ← perform (.recover claim) with
    | .active => do
      worker.heartbeat claim
      worker.succeed claim
    | .uncertain => worker.handleFailure claim {
        stage := "RECOVERY"
        code := "RECOVERY_STATE_UNCERTAIN"
        retryable := true
        cleanupCandidate := false }
    | .safeToRetry =>
      if worker.maxAttempts < claim.attempts then
        worker.handleFailure claim {
          stage := "RECOVERY"
          code := "WORKER_RECOVERY_EXHAUSTED" }
      else worker.runDeployment claim
  else worker.runDeployment claim

/-- The `except` clauses of `run_once`. -/
def settleException (claim : DeploymentJobClaim) : Exc → DeploymentPy Unit
  | .deploymentClaimLost => .pure ()
  | .runtimeFailure failure => worker.handleFailure claim failure
  | _ => worker.handleFailure claim {
      stage := "RUNTIME"
      code := "UNEXPECTED_RUNTIME_FAILURE" }

def runOnce : DeploymentPy Bool := do
  match ← repository (.claimNext worker.workerId worker.leaseDuration) with
  | none => do
    if worker.diagnosticRetention.isSome then
      (repository (.purgeExpiredDiagnostics 100)).tryCatch fun _ ↦ .pure ()
    .pure false
  | some claim => do
    (worker.runClaim claim).tryCatch (worker.settleException claim)
    perform (.finished claim)
    .pure true

end DeploymentWorker

end Heimdall
