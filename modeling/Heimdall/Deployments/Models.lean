import Heimdall.PublicRoutes.Models
import Heimdall.Text.Json

/-!
# Deployments

The records the deployment worker passes around: a deployment with its frozen configuration, the
claims of the deployment and the reconciliation jobs, the runtime row of a project and the
diagnostic artifacts that are kept of a failure.
-/

namespace Heimdall

inductive DeploymentStatus where
  | queued
  | preparing
  | building
  | starting
  | healthChecking
  | activating
  | succeeded
  | failed
deriving DecidableEq

inductive DeploymentSource where
  | mainHead
  | mainCommit
deriving DecidableEq

/-- The statuses a deployment does not leave on its own. -/
def DeploymentStatus.isTerminal : DeploymentStatus → Bool
  | .succeeded | .failed => true
  | _ => false

/-- A deployment: a row of `deployments` with its key. -/
structure Deployment where
  id : Uuid
  projectId : Uuid
  sourceType : DeploymentSource
  requestedCommitSha : Option String
  resolvedCommitSha : String
  configVersion : ℕ
  configSnapshot : Json.Value
  status : DeploymentStatus
  failureStage : Option String := none
  failureCode : Option String := none
  createdAt : Time
  updatedAt : Time
  terminalAt : Option Time := none

inductive DeploymentJobState where
  | pending
  | claimed
  | done
deriving DecidableEq

/-- A row of `deployment_jobs` apart from its key. -/
structure DeploymentJobRow where
  state : DeploymentJobState
  attempts : ℕ := 0
  availableAt : Time
  leaseOwner : Option String := none
  leaseExpiresAt : Option Time := none
  claimToken : Option Uuid := none
  createdAt : Time
  updatedAt : Time
deriving DecidableEq

/-- A row of `deployment_events`. -/
structure DeploymentEvent where
  id : ℕ
  deploymentId : Uuid
  stage : String
  code : String
  message : String
  createdAt : Time
deriving DecidableEq

/-- What a worker is given when it takes a deployment job. -/
structure DeploymentJobClaim where
  deployment : Deployment
  token : Uuid
  workerId : String
  attempts : ℕ
  leaseExpiresAt : Time

/-- What a look at a runtime says about a candidate. -/
inductive RecoveryDisposition where
  | active
  | safeToRetry
  | uncertain
deriving DecidableEq

/-- A row of `project_runtimes`: the gateway of a project and the generation it serves. -/
structure ProjectRuntime where
  projectId : Uuid
  gatewayContainerName : String
  previewPort : ℕ
  activeDeploymentId : Option Uuid := none
  activeNetworkName : Option String := none
  activeContainerNames : List String := []
  activeImageNames : List String := []
  updatedAt : Time
deriving DecidableEq

/-! ## Reconciliation -/

inductive ReconciliationAction where
  | reconcile
  | forceCleanup
deriving DecidableEq

inductive ReconciliationRequester where
  | system
  | admin
deriving DecidableEq

inductive ReconciliationState where
  | pending
  | claimed
  | resolved
  | blocked
deriving DecidableEq

inductive ReconciliationResult where
  | active
  | cleaned
  | uncertain
deriving DecidableEq

/-- A row of `runtime_reconciliations` apart from its key. -/
structure RuntimeReconciliationRow where
  action : ReconciliationAction
  requestedBy : ReconciliationRequester
  state : ReconciliationState
  result : Option ReconciliationResult := none
  resultCode : Option String := none
  attempts : ℕ := 0
  availableAt : Time
  leaseOwner : Option String := none
  leaseExpiresAt : Option Time := none
  claimToken : Option Uuid := none
  createdAt : Time
  updatedAt : Time
  completedAt : Option Time := none
deriving DecidableEq

/-- A reconciliation as the program passes it around. -/
structure RuntimeReconciliation where
  deploymentId : Uuid
  action : ReconciliationAction
  requestedBy : ReconciliationRequester
  state : ReconciliationState
  result : Option ReconciliationResult
  resultCode : Option String
  attempts : ℕ
  availableAt : Time
  createdAt : Time
  updatedAt : Time
  completedAt : Option Time
deriving DecidableEq

structure RuntimeReconciliationClaim where
  reconciliation : RuntimeReconciliation
  token : Uuid
  workerId : String
  leaseExpiresAt : Time
deriving DecidableEq

/-! ## Diagnostics -/

inductive DiagnosticArtifactKind where
  | commandOutput
  | serviceLog
deriving DecidableEq

inductive DiagnosticCaptureStatus where
  | captured
  | unavailable
deriving DecidableEq

/-- A row of `deployment_diagnostic_artifacts`. -/
structure DiagnosticArtifactRow where
  id : Uuid
  deploymentId : Uuid
  eventId : ℕ
  kind : DiagnosticArtifactKind
  failureStage : String
  failureCode : String
  captureStatus : DiagnosticCaptureStatus
  captureCode : Option String
  operation : Option String
  serviceName : Option String
  returnCode : Option Int
  containerStatus : Option String
  containerExitCode : Option Int
  lineCount : ℕ
  byteCount : ℕ
  truncated : Bool
  payload : Json.Value
  capturedAt : Time
  expiresAt : Time

inductive DiagnosticStream where
  | stdout
  | stderr
deriving DecidableEq

structure DiagnosticLine where
  stream : DiagnosticStream
  message : String
  timestamp : Option String := none
deriving DecidableEq

/-- A piece of output kept for a failed deployment. -/
structure DiagnosticArtifactDraft where
  kind : DiagnosticArtifactKind
  captureStatus : DiagnosticCaptureStatus
  captureCode : Option String := none
  operation : Option String := none
  serviceName : Option String := none
  returnCode : Option Int := none
  containerStatus : Option String := none
  containerExitCode : Option Int := none
  lines : List DiagnosticLine := []
  truncated : Bool := false
  capturedAt : Time
deriving DecidableEq

/-! ## Table checks -/

/-- A full commit hash. -/
def isCommitSha (s : String) : Bool :=
  s.length == 40 && s.toList.all fun c ↦ c.isDigit || ('a' ≤ c && c ≤ 'f')

/-- The column types of `deployments`. -/
def Deployment.fits (d : Deployment) : Bool :=
  d.configVersion < 2 ^ 31 && d.failureStage.all (·.length ≤ 32)
    && d.failureCode.all (·.length ≤ 64)

/-- The `CHECK` constraints of `deployments`. -/
def Deployment.checks (d : Deployment) : Bool :=
  0 < d.configVersion && d.requestedCommitSha.all isCommitSha && isCommitSha d.resolvedCommitSha

/-- The column types of `deployment_jobs`. -/
def DeploymentJobRow.fits (j : DeploymentJobRow) : Bool :=
  j.attempts < 2 ^ 31 && j.leaseOwner.all (·.length ≤ 128)

/-- The column types of `deployment_events`. -/
def DeploymentEvent.fits (e : DeploymentEvent) : Bool :=
  e.id < 2 ^ 63 && e.stage.length ≤ 32 && e.code.length ≤ 64 && e.message.length ≤ 300

/-- The column types of `runtime_reconciliations`. -/
def RuntimeReconciliationRow.fits (r : RuntimeReconciliationRow) : Bool :=
  r.attempts < 2 ^ 31 && r.resultCode.all (·.length ≤ 64) && r.leaseOwner.all (·.length ≤ 128)

/-- The `CHECK` constraints of `runtime_reconciliations`. -/
def RuntimeReconciliationRow.checks (r : RuntimeReconciliationRow) : Bool :=
  (if r.state = .claimed then
      r.leaseOwner.isSome && r.leaseExpiresAt.isSome && r.claimToken.isSome
    else r.leaseOwner.isNone && r.leaseExpiresAt.isNone && r.claimToken.isNone)
    && (if r.state = .resolved ∨ r.state = .blocked then r.completedAt.isSome
      else r.completedAt.isNone)

/-- A PostgreSQL `integer`. -/
def isInteger (n : Int) : Bool := -2 ^ 31 ≤ n && n < 2 ^ 31

/-- A `varchar` of a length. -/
def isVarchar (n : ℕ) (s : String) : Bool := s.length ≤ n && Json.Value.isStorable s

/-- The column types of `deployment_diagnostic_artifacts`. -/
def DiagnosticArtifactRow.fits (a : DiagnosticArtifactRow) : Bool :=
  isVarchar 32 a.failureStage && isVarchar 64 a.failureCode && a.captureCode.all (isVarchar 64)
    && a.operation.all (isVarchar 64) && a.serviceName.all (isVarchar 32)
    && a.returnCode.all isInteger && a.containerStatus.all (isVarchar 32)
    && a.containerExitCode.all isInteger && a.payload.isJsonb

/-- The `CHECK` constraints of `deployment_diagnostic_artifacts`. -/
def DiagnosticArtifactRow.checks (a : DiagnosticArtifactRow) : Bool :=
  a.byteCount ≤ 262144
    && (match a.kind with
      | .commandOutput => a.operation.isSome
      | .serviceLog => a.serviceName.isSome)
    && (match a.captureStatus with
      | .captured => a.captureCode.isNone
      | .unavailable => a.captureCode.isSome && a.lineCount == 0)

end Heimdall
