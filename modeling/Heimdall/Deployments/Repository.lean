import Heimdall.Deployments.Models
import Heimdall.PublicRoutes.Repository

/-!
# The deployment repository

Each operation is one transaction, as a function from the tables to an exception or to a result and
the tables after the commit. Every operation under a claim begins with a lock on its job row and
keeps it until it ends, `claim_next` passes over the rows it finds locked, and the reconciliation
locks the deployment row, so two operations on one deployment run one after the other.

An operation reads the clock once, before its transaction starts; `now` is that reading. Values the
database or the program draws, a fresh UUID or the next number of the event sequence, are arguments.
-/

namespace Heimdall

/-- The tables the deployment operations read and write. -/
structure DeploymentDb where
  /-- The status of each existing project. -/
  projects : Uuid → Option ProjectStatus
  /-- `deployments`. -/
  deployments : AList fun _ : Uuid ↦ Deployment
  /-- `deployment_jobs`. -/
  jobs : AList fun _ : Uuid ↦ DeploymentJobRow
  /-- `deployment_events`, in the order of their commits. -/
  events : List DeploymentEvent
  /-- `deployment_diagnostic_artifacts`. -/
  diagnostics : List DiagnosticArtifactRow

namespace DeploymentDb

/-! ## Statements -/

/-- Another deployment of the project is under way: `one_active_deployment_per_project`. -/
def activeViolated (db : DeploymentDb) (d : Uuid) (row : Deployment) : Bool :=
  !row.status.isTerminal && db.deployments.entries.any fun e ↦
    e.1 != d && e.2.projectId == row.projectId && !e.2.status.isTerminal

/-- Write a deployment row. -/
def putDeployment (db : DeploymentDb) (d : Uuid) (row : Deployment) : Except Exc DeploymentDb :=
  if !row.fits then .error .database
  else if !row.checks then .error .checkViolation
  else if db.activeViolated d row then .error .uniqueViolation
  else .ok { db with deployments := db.deployments.insert d row }

/-- Write a job row. -/
def putJob (db : DeploymentDb) (d : Uuid) (job : DeploymentJobRow) : Except Exc DeploymentDb :=
  if !job.fits then .error .database
  else .ok { db with jobs := db.jobs.insert d job }

/-- `INSERT INTO deployments`, which refers to an existing project. -/
def insertDeployment (db : DeploymentDb) (row : Deployment) : Except Exc DeploymentDb :=
  if (db.deployments.lookup row.id).isSome then .error .uniqueViolation
  else if (db.projects row.projectId).isNone then .error .database
  else db.putDeployment row.id row

/-- `INSERT INTO deployment_jobs`. -/
def insertJob (db : DeploymentDb) (d : Uuid) (job : DeploymentJobRow) : Except Exc DeploymentDb :=
  if (db.jobs.lookup d).isSome then .error .uniqueViolation else db.putJob d job

/-- `_insert_event`, with the number drawn from the sequence. -/
def insertEvent (db : DeploymentDb) (event : DeploymentEvent) : Except Exc DeploymentDb :=
  if !event.fits then .error .database
  else if db.events.any (·.id == event.id) then .error .uniqueViolation
  else .ok { db with events := db.events ++ [event] }

/-- The fence of a claim on a job row: same owner and token, and a lease that is still running. -/
def holdsClaim (job : DeploymentJobRow) (claim : DeploymentJobClaim) (now : Time) : Bool :=
  job.state == .claimed && job.leaseOwner == some claim.workerId
    && job.claimToken == some claim.token && job.leaseExpiresAt.any (now < ·)

/-- `_lock_claim`. -/
def lockClaim (db : DeploymentDb) (claim : DeploymentJobClaim) (now : Time) : Except Exc Unit :=
  if (db.jobs.lookup claim.deployment.id).any (holdsClaim · claim now) then .ok ()
  else .error .deploymentClaimLost

/-- `UPDATE deployments … WHERE id = … AND status NOT IN ('SUCCEEDED', 'FAILED')`; a deployment
that has ended is a lost claim. -/
def updateProcessing (db : DeploymentDb) (claim : DeploymentJobClaim)
    (set : Deployment → Deployment) : Except Exc (Deployment × DeploymentDb) :=
  match db.deployments.lookup claim.deployment.id with
  | some row =>
    if row.status.isTerminal then .error .deploymentClaimLost
    else do
      let db ← db.putDeployment claim.deployment.id (set row)
      .ok (set row, db)
  | none => .error .deploymentClaimLost

/-- `UPDATE deployment_jobs … WHERE deployment_id = … AND lease_owner = … AND claim_token = …`, which
gives the lease up. -/
def releaseJob (db : DeploymentDb) (claim : DeploymentJobClaim)
    (set : DeploymentJobRow → DeploymentJobRow) : Except Exc DeploymentDb :=
  match db.jobs.lookup claim.deployment.id with
  | some job =>
    if job.leaseOwner == some claim.workerId && job.claimToken == some claim.token then
      db.putJob claim.deployment.id { set job with
        leaseOwner := none
        leaseExpiresAt := none
        claimToken := none }
    else .error .deploymentClaimLost
  | none => .error .deploymentClaimLost

/-- `_complete_job`. -/
def completeJob (db : DeploymentDb) (claim : DeploymentJobClaim) (now : Time) :
    Except Exc DeploymentDb :=
  db.releaseJob claim fun job ↦ { job with state := .done, updatedAt := now }

/-! ## Requests -/

/-- `except UniqueViolation as error: raise ActiveDeploymentError`. -/
def asActive {α : Type} : Except Exc α → Except Exc α
  | .error .uniqueViolation => .error .activeDeployment
  | r => r

/-- What `create` is asked to deploy. -/
structure DeploymentRequest where
  projectId : Uuid
  sourceType : DeploymentSource
  requestedCommitSha : Option String
  resolvedCommitSha : String
  configVersion : ℕ
  configSnapshot : Json.Value

def create (db : DeploymentDb) (id : Uuid) (request : DeploymentRequest) (now : Time) :
    Except Exc (Deployment × DeploymentDb) := asActive do
  if db.projects request.projectId = some .deleting then .error .deploymentProjectDeleting
  else
    let row : Deployment := { request with
      id := id
      status := .queued
      createdAt := now
      updatedAt := now }
    let db ← db.insertDeployment row
    let db ← db.insertJob id {
      state := .pending
      availableAt := now
      createdAt := now
      updatedAt := now }
    .ok (row, db)

/-! ## Reads -/

def get (db : DeploymentDb) (d : Uuid) : Except Exc Deployment :=
  match db.deployments.lookup d with
  | some row => .ok row
  | none => .error .deploymentNotFound

/-- `list_events_after`. -/
def listEventsAfter (db : DeploymentDb) (d : Uuid) (afterId limit : ℕ) : List DeploymentEvent :=
  ((db.events.filter fun e ↦ e.deploymentId = d ∧ afterId < e.id).insertionSort
    fun a b ↦ a.id ≤ b.id).take limit

/-! ## Claims -/

/-- A job that may be taken: due, or claimed with a lease that has run out, of a deployment that has
not ended. -/
def claimable (db : DeploymentDb) (now : Time) (d : Uuid) (job : DeploymentJobRow) : Bool :=
  ((job.state == .pending && job.availableAt ≤ now)
      || (job.state == .claimed && job.leaseExpiresAt.any (· ≤ now)))
    && (db.deployments.lookup d).any (!·.status.isTerminal)

/-- `ORDER BY job.available_at, job.created_at, job.deployment_id`. -/
def jobBefore (a b : Uuid × DeploymentJobRow) : Bool :=
  a.2.availableAt < b.2.availableAt || (a.2.availableAt == b.2.availableAt
    && (a.2.createdAt < b.2.createdAt || (a.2.createdAt == b.2.createdAt && a.1.hex ≤ b.1.hex)))

/-- The job `claim_next` takes: the first claimable one whose row is not locked by somebody else. -/
def nextJob (db : DeploymentDb) (locked : Uuid → Bool) (now : Time) :
    Option (Uuid × DeploymentJobRow) :=
  (((db.jobs.entries.filter fun e ↦ db.claimable now e.1 e.2 && !locked e.1).map fun e ↦
    (e.1, e.2)).insertionSort fun a b ↦ jobBefore a b).head?

def claimNext (db : DeploymentDb) (workerId : String) (leaseDuration : Time) (token : Uuid)
    (locked : Uuid → Bool) (eventId : ℕ) (now : Time) :
    Except Exc (Option DeploymentJobClaim × DeploymentDb) :=
  match db.nextJob locked now with
  | none => .ok (none, db)
  | some (d, job) => do
    let job := { job with
      state := .claimed
      attempts := job.attempts + 1
      leaseOwner := some workerId
      leaseExpiresAt := some (now + leaseDuration)
      claimToken := some token
      updatedAt := now }
    let db ← db.putJob d job
    match db.deployments.lookup d with
    | none => .error .database
    | some row =>
      let row := { row with
        status := .preparing
        failureStage := none
        failureCode := none
        updatedAt := now
        terminalAt := none }
      let db ← db.putDeployment d row
      let db ← db.insertEvent {
        id := eventId
        deploymentId := d
        stage := "PREPARING"
        code := "JOB_CLAIMED"
        message := "Worker claimed the deployment job"
        createdAt := now }
      .ok (some {
        deployment := row
        token := token
        workerId := workerId
        attempts := job.attempts
        leaseExpiresAt := now + leaseDuration }, db)

def renew (db : DeploymentDb) (claim : DeploymentJobClaim) (leaseDuration now : Time) :
    Except Exc (Time × DeploymentDb) :=
  match db.jobs.lookup claim.deployment.id with
  | some job =>
    if holdsClaim job claim now then do
      let db ← db.putJob claim.deployment.id { job with
        leaseExpiresAt := some (now + leaseDuration)
        updatedAt := now }
      .ok (now + leaseDuration, db)
    else .error .deploymentClaimLost
  | none => .error .deploymentClaimLost

/-- The text of a status in the tables. -/
def statusText : DeploymentStatus → String
  | .queued => "QUEUED"
  | .preparing => "PREPARING"
  | .building => "BUILDING"
  | .starting => "STARTING"
  | .healthChecking => "HEALTH_CHECKING"
  | .activating => "ACTIVATING"
  | .succeeded => "SUCCEEDED"
  | .failed => "FAILED"

def advance (db : DeploymentDb) (claim : DeploymentJobClaim) (status : DeploymentStatus)
    (eventCode eventMessage : String) (eventId : ℕ) (now : Time) :
    Except Exc (Deployment × DeploymentDb) :=
  if status ∈ [.queued, .succeeded, .failed] then .error .value
  else do
    db.lockClaim claim now
    let (row, db) ← db.updateProcessing claim fun row ↦ { row with
      status := status
      updatedAt := now }
    let db ← db.insertEvent {
      id := eventId
      deploymentId := claim.deployment.id
      stage := statusText status
      code := eventCode
      message := eventMessage
      createdAt := now }
    .ok (row, db)

def succeed (db : DeploymentDb) (claim : DeploymentJobClaim) (eventId : ℕ) (now : Time) :
    Except Exc (Deployment × DeploymentDb) := do
  db.lockClaim claim now
  let (row, db) ← db.updateProcessing claim fun row ↦ { row with
    status := .succeeded
    failureStage := none
    failureCode := none
    updatedAt := now
    terminalAt := some now }
  let db ← db.completeJob claim now
  let db ← db.insertEvent {
    id := eventId
    deploymentId := claim.deployment.id
    stage := statusText .succeeded
    code := "DEPLOYMENT_SUCCEEDED"
    message := "The preview deployment is active"
    createdAt := now }
  .ok (row, db)

def fail (db : DeploymentDb) (claim : DeploymentJobClaim) (stage code : String) (eventId : ℕ)
    (now : Time) : Except Exc (Deployment × DeploymentDb) := do
  db.lockClaim claim now
  let (row, db) ← db.updateProcessing claim fun row ↦ { row with
    status := .failed
    failureStage := some stage
    failureCode := some code
    updatedAt := now
    terminalAt := some now }
  let db ← db.completeJob claim now
  let db ← db.insertEvent {
    id := eventId
    deploymentId := claim.deployment.id
    stage := statusText .failed
    code := code
    message := "The deployment failed during runtime processing"
    createdAt := now }
  .ok (row, db)

def retry (db : DeploymentDb) (claim : DeploymentJobClaim) (availableAt : Time)
    (stage code : String) (eventId : ℕ) (now : Time) : Except Exc (Deployment × DeploymentDb) := do
  db.lockClaim claim now
  let (row, db) ← db.updateProcessing claim fun row ↦ { row with
    status := .queued
    failureStage := some stage
    failureCode := some code
    updatedAt := now
    terminalAt := none }
  let db ← db.releaseJob claim fun job ↦ { job with
    state := .pending
    availableAt := availableAt
    updatedAt := now }
  let db ← db.insertEvent {
    id := eventId
    deploymentId := claim.deployment.id
    stage := statusText .queued
    code := "DEPLOYMENT_RETRY_SCHEDULED"
    message := "A retryable runtime failure was scheduled for retry"
    createdAt := now }
  .ok (row, db)

/-! ## Diagnostics -/

/-- `_diagnostic_event_summary`. -/
def diagnosticEventSummary (artifacts : List DiagnosticArtifactDraft) : String × String :=
  let captured := artifacts.countP fun a ↦ a.captureStatus == .captured
  let eventCode :=
    if captured = artifacts.length ∧ artifacts ≠ [] then "DIAGNOSTIC_LOG_CAPTURED"
    else if captured ≠ 0 then "DIAGNOSTIC_LOG_PARTIAL"
    else "DIAGNOSTIC_LOG_UNAVAILABLE"
  (eventCode, "Stored " ++ toString captured ++ " of " ++ toString artifacts.length
    ++ " bounded diagnostic artifacts")

def diagnosticStreamText : DiagnosticStream → String
  | .stdout => "STDOUT"
  | .stderr => "STDERR"

/-- The payload column of an artifact. -/
def diagnosticPayload (lines : List DiagnosticLine) : Json.Value :=
  .arr <| lines.map fun line ↦ .obj [
    ("timestamp", (line.timestamp.map Json.Value.str).getD .null),
    ("stream", .str (diagnosticStreamText line.stream)),
    ("message", .str line.message)]

/-- `deployment_diagnostic_artifacts_event_source_uq` or the primary key already has the row. -/
def diagnosticConflict (a b : DiagnosticArtifactRow) : Bool :=
  a.id == b.id || (a.eventId == b.eventId && a.kind == b.kind
    && a.operation.getD "" == b.operation.getD "" && a.serviceName.getD "" == b.serviceName.getD "")

/-- `INSERT INTO deployment_diagnostic_artifacts … ON CONFLICT DO NOTHING`. -/
def insertDiagnostic (db : DeploymentDb) (row : DiagnosticArtifactRow) : Except Exc DeploymentDb :=
  if !row.fits then .error .database
  else if !row.checks then .error .checkViolation
  else if db.diagnostics.any (diagnosticConflict row) then .ok db
  else .ok { db with diagnostics := db.diagnostics ++ [row] }

/-- `_insert_diagnostic_artifacts`, with a fresh UUID for each artifact. -/
def insertDiagnosticArtifacts (d : Uuid) (eventId : ℕ) (stage code : String) (retention : Time) :
    DeploymentDb → List (Uuid × DiagnosticArtifactDraft) → Except Exc DeploymentDb
  | db, [] => .ok db
  | db, (id, artifact) :: rest =>
    let payload := diagnosticPayload artifact.lines
    let byteCount := (Json.dumps false payload).utf8ByteSize
    if 262144 < byteCount then .error .value
    else do
      let db ← db.insertDiagnostic { artifact with
        id := id
        deploymentId := d
        eventId := eventId
        failureStage := stage
        failureCode := code
        lineCount := artifact.lines.length
        byteCount := byteCount
        payload := payload
        expiresAt := artifact.capturedAt + retention }
      insertDiagnosticArtifacts d eventId stage code retention db rest

/-- What is recorded about a failure. -/
structure DiagnosticReport where
  failureStage : String
  failureCode : String
  /-- The artifacts, each with the UUID drawn for it. -/
  artifacts : List (Uuid × DiagnosticArtifactDraft)
  retention : Int

/-- The event of a report. -/
def diagnosticEvent (d : Uuid) (report : DiagnosticReport) (eventId : ℕ) (now : Time) :
    DeploymentEvent :=
  let summary := diagnosticEventSummary (report.artifacts.map Prod.snd)
  { id := eventId
    deploymentId := d
    stage := report.failureStage
    code := summary.1
    message := summary.2
    createdAt := now }

/-- The event and the artifacts of a report. -/
def insertReport (db : DeploymentDb) (d : Uuid) (report : DiagnosticReport) (eventId : ℕ)
    (now : Time) : Except Exc (DeploymentEvent × DeploymentDb) := do
  let event := diagnosticEvent d report eventId now
  let db ← db.insertEvent event
  let db ← insertDiagnosticArtifacts d eventId report.failureStage report.failureCode
    report.retention.toNat db report.artifacts
  .ok (event, db)

def recordDiagnostics (db : DeploymentDb) (claim : DeploymentJobClaim) (report : DiagnosticReport)
    (eventId : ℕ) (now : Time) : Except Exc (DeploymentEvent × DeploymentDb) :=
  if report.retention ≤ 0 then .error .value
  else do
    db.lockClaim claim now
    db.insertReport claim.deployment.id report eventId now

/-! ## Reconciliation -/

/-- A failure that left the state of the runtime open. -/
def isUncertain (row : Deployment) : Bool :=
  row.status == .failed && row.failureStage == some "RECOVERY"
    && row.failureCode == some "RECOVERY_STATE_UNCERTAIN"

def recordReconciliationDiagnostics (db : DeploymentDb) (d : Uuid) (report : DiagnosticReport)
    (eventId : ℕ) (now : Time) : Except Exc (DeploymentEvent × DeploymentDb) :=
  if report.retention ≤ 0 then .error .value
  else match db.deployments.lookup d with
    | none => .error .deploymentNotFound
    | some current =>
      if isUncertain current then db.insertReport d report eventId now
      else .error .deploymentReconciliationConflict

def reconcileSucceeded (db : DeploymentDb) (d : Uuid) (eventId : ℕ) (now : Time) :
    Except Exc (Deployment × DeploymentDb) :=
  match db.deployments.lookup d with
  | none => .error .deploymentNotFound
  | some current =>
    if current.status = .succeeded then .ok (current, db)
    else if isUncertain current then do
      let row := { current with
        status := .succeeded
        failureStage := none
        failureCode := none
        updatedAt := now
        terminalAt := some now }
      let db ← db.putDeployment d row
      let db ← db.insertEvent {
        id := eventId
        deploymentId := d
        stage := statusText .succeeded
        code := "DEPLOYMENT_RECONCILED_ACTIVE"
        message := "The preserved runtime was verified and restored as the active deployment"
        createdAt := now }
      .ok (row, db)
    else .error .deploymentReconciliationConflict

end DeploymentDb

end Heimdall
