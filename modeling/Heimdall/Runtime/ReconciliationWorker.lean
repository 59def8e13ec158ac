import Heimdall.Interface

/-!
# The reconciliation worker

`RuntimeReconciliationWorker.run_once`: schedule what is due, take one reconciliation, look at the
runtime, and settle the reconciliation by what was found. What looks at the runtime and cleans it up
is handed to the worker (`ReconciliationProcessor`); it renews the lease of the claim meanwhile.
-/

namespace Heimdall

open Effect

structure ReconciliationProcessor where
  recover (deployment : Deployment) (heartbeat : Py Unit) : Py RecoveryDisposition
  cleanupCandidateVerified (deployment : Deployment) (heartbeat : Py Unit) : Py Unit
  prepareReconciliationCleanup (deployment : Deployment) (heartbeat : Py Unit) : Py Unit
  captureDiagnostics (deployment : Deployment) (failure : RuntimeFailure) (heartbeat : Py Unit) :
    Py (List DiagnosticArtifactDraft)

structure RuntimeReconciliationWorker where
  processor : ReconciliationProcessor
  workerId : String
  leaseDuration : Time
  retentionDuration : Time
  maxAttempts : ℕ := 3
  retryBaseDelay : Time := 5
  diagnosticRetention : Option Time := none
  /-- There is a callback that wakes the routing worker. -/
  onRuntimeReady : Bool := false

namespace RuntimeReconciliationWorker

variable (worker : RuntimeReconciliationWorker)

/-- `ReconciliationProgress.heartbeat` -/
def heartbeat (claim : RuntimeReconciliationClaim) : Py Unit := do
  let _ ← Py.reconciliations (.renew claim worker.leaseDuration)

/-- A step of `_capture_before_cleanup`: only a lost claim is passed on. -/
def unlessClaimLost (p : Py Unit) (otherwise : Py Unit) : Py Unit :=
  p.handle fun
    | .ok () => otherwise
    | .error .reconciliationClaimLost => Py.raise .reconciliationClaimLost
    | .error _ => pure ()

/-- `_capture_before_cleanup` -/
def captureBeforeCleanup (claim : RuntimeReconciliationClaim) (deployment : Deployment)
    (code : String) : Py Unit :=
  match worker.diagnosticRetention with
  | none => pure ()
  | some retention =>
    unlessClaimLost (worker.processor.prepareReconciliationCleanup deployment (worker.heartbeat claim))
      (unlessClaimLost (do
        let failure : RuntimeFailure := {
          stage := "RECONCILIATION"
          code := code
          cleanupCandidate := false }
        let artifacts ←
          worker.processor.captureDiagnostics deployment failure (worker.heartbeat claim)
        Py.deployments (.recordReconciliationDiagnostics deployment.id failure.stage failure.code
          artifacts retention)) (pure ()))

/-- Remove the candidate and say so. -/
def cleanUp (claim : RuntimeReconciliationClaim) (deployment : Deployment)
    (capture code : String) : Py Unit := do
  worker.captureBeforeCleanup claim deployment capture
  worker.processor.cleanupCandidateVerified deployment (worker.heartbeat claim)
  worker.heartbeat claim
  Py.reconciliations (.resolve claim .cleaned code)

/-- The callback that wakes the routing worker, whose exceptions are ignored. -/
def wakeRouting (project : Uuid) : Py Unit :=
  if worker.onRuntimeReady then
    Prog.tryCatch (Prog.op (Op.onRuntimeReady project)) fun _ ↦ pure ()
  else pure ()

/-- The candidate serves: the deployment has succeeded after all. -/
def settleActive (claim : RuntimeReconciliationClaim) (deployment : Deployment) : Py Unit := do
  worker.heartbeat claim
  let reconciled ← Py.deployments (.reconcileSucceeded deployment.id)
  worker.wakeRouting reconciled.projectId
  Py.reconciliations (.resolve claim .active "ACTIVE_GENERATION_RECONCILED")

/-- The body of the `try` statement of `run_once`. -/
def runClaim (claim : RuntimeReconciliationClaim) : Py Unit :=
  if worker.maxAttempts < claim.reconciliation.attempts then
    Py.reconciliations (.block claim "RECONCILIATION_ATTEMPTS_EXHAUSTED")
  else do
    let deployment ← Py.deployments (.get claim.reconciliation.deploymentId)
    match ← worker.processor.recover deployment (worker.heartbeat claim) with
    | .active => worker.settleActive claim deployment
    | .safeToRetry =>
      worker.cleanUp claim deployment "INACTIVE_CANDIDATE_CLEANUP" "INACTIVE_CANDIDATE_CLEANED"
    | .uncertain =>
      match claim.reconciliation.action with
      | .forceCleanup =>
        worker.cleanUp claim deployment "FORCED_CANDIDATE_CLEANUP" "FORCED_CANDIDATE_CLEANUP"
      | .reconcile => Py.reconciliations (.block claim "RECOVERY_STATE_UNCERTAIN")

/-- `except ReconciliationClaimLostError: return`. -/
def ignoreClaimLost (p : Py Unit) : Py Unit :=
  p.except fun
    | .reconciliationClaimLost => some (pure ())
    | _ => none

/-- `_handle_failure` -/
def handleFailure (claim : RuntimeReconciliationClaim) (failure : RuntimeFailure) : Py Unit :=
  ignoreClaimLost <|
    if failure.retryable ∧ claim.reconciliation.attempts < worker.maxAttempts then do
      let now ← Py.now
      let delay := worker.retryBaseDelay * 2 ^ (claim.reconciliation.attempts - 1)
      Py.reconciliations (.retry claim (now + delay) failure.code)
    else Py.reconciliations (.block claim failure.code)

/-- `_block` -/
def block (claim : RuntimeReconciliationClaim) (code : String) : Py Unit :=
  ignoreClaimLost (Py.reconciliations (.block claim code))

/-- The `except` clauses of `run_once`. -/
def settleException (claim : RuntimeReconciliationClaim) : Exc → Py Unit
  | .reconciliationClaimLost => pure ()
  | .app | .appError _ _ _ => block claim "RECONCILIATION_DEPLOYMENT_CONFLICT"
  | .runtimeFailure failure => worker.handleFailure claim failure
  | _ => worker.handleFailure claim {
      stage := "RECONCILIATION"
      code := "UNEXPECTED_RECONCILIATION_FAILURE"
      retryable := true
      cleanupCandidate := false }

def runOnce : Py Bool := do
  let now ← Py.now
  let eligible ← Py.deployments (.listUncertainBefore (now - worker.retentionDuration))
  Py.reconciliations (.scheduleAutomatic (eligible.filterMap fun item ↦
    item.terminalAt.map fun t ↦ (item.id, t + worker.retentionDuration)))
  match ← Py.reconciliations (.claimNext worker.workerId worker.leaseDuration) with
  | none => pure false
  | some claim => do
    (worker.runClaim claim).tryCatch (worker.settleException claim)
    pure true

end RuntimeReconciliationWorker

end Heimdall
