import Heimdall.Database

/-!
# The deletion of projects

The operations on `project_deletion_jobs`. A request locks the project first and then looks at what
there is; every operation under a claim locks the job row, and `claim_next_deletion` passes over the
rows it finds locked. `status` is what an operation has read of the projects it locked.

`clock_timestamp()` is read anew by each statement: the `i`-th statement that looks at the clock uses
the `i`-th reading.
-/

namespace Heimdall

namespace Database

/-! ## Requests -/

/-- What an administrator confirms. -/
structure DeletionConfirmation where
  confirmation : String
  deleteManagedDatabase : Bool
  managedDatabaseConfirmation : Option String
deriving DecidableEq

/-- `_validate_deletion_confirmation` -/
def validateDeletionConfirmation (p : Uuid) (hasDatabase : Bool) (c : DeletionConfirmation) :
    Except Exc Unit :=
  if c.confirmation ≠ p.str then
    .error (.projectDeletionValidation "PROJECT_DELETE_CONFIRMATION_MISMATCH")
  else if hasDatabase = true ∧ (c.deleteManagedDatabase = false
      ∨ c.managedDatabaseConfirmation ≠ some ("DELETE " ++ p.str ++ " APPLICATION DATA")) then
    .error (.projectDeletionValidation "PROJECT_DATABASE_DELETE_CONFIRMATION_REQUIRED")
  else .ok ()

/-- `_deletion_job` -/
def deletionJob (p : Uuid) (row : ProjectDeletionJobRow) : ProjectDeletionJob :=
  { row with projectId := p }

/-- Write a job row. -/
def putDeletionJob (db : Database) (p : Uuid) (job : ProjectDeletionJobRow) : Except Exc Database :=
  if !job.fits then .error .database
  else if !job.checks then .error .checkViolation
  else .ok { db with deletionJobs := db.deletionJobs.insert p job }

def hasManagedDatabase (db : Database) (p : Uuid) : Bool := (db.databaseResources.lookup p).isSome

/-- `UPDATE projects SET status = 'DELETING'` -/
def markDeleting (db : Database) (p : Uuid) (now : Time) : Database :=
  match db.projects.lookup p with
  | some row =>
    { db with projects := db.projects.insert p { row with status := .deleting, updatedAt := now } }
  | none => db

def requestDeletion (status : Statuses) (db : Database) (p : Uuid) (c : DeletionConfirmation)
    (now : Time) : Except Exc (ProjectDeletionJob × Database) :=
  if (status p).isNone then .error .projectNotFound
  else do
    validateDeletionConfirmation p (db.hasManagedDatabase p) c
    match db.deletionJobs.lookup p with
    | some existing =>
      if existing.state = .failed then .error (.projectDeletionConflict "PROJECT_DELETION_FAILED")
      else .ok (deletionJob p existing, db)
    | none =>
      let job : ProjectDeletionJobRow := {
        state := .pending
        phase := .requested
        availableAt := now
        deleteManagedDatabase := db.hasManagedDatabase p
        createdAt := now
        updatedAt := now }
      let db ← (db.markDeleting p now).putDeletionJob p job
      .ok (deletionJob p job, db)

def retryDeletion (status : Statuses) (db : Database) (p : Uuid) (c : DeletionConfirmation)
    (now : Time) : Except Exc (ProjectDeletionJob × Database) :=
  if (status p).isNone then .error .projectNotFound
  else do
    validateDeletionConfirmation p (db.hasManagedDatabase p) c
    match db.deletionJobs.lookup p with
    | none => .error .projectDeletionNotFound
    | some job =>
      if job.state = .failed then do
        let job := { job with
          state := .pending
          attempts := 0
          availableAt := now
          leaseOwner := none
          leaseExpiresAt := none
          claimToken := none
          lastErrorCode := none
          lastErrorRetryable := none
          updatedAt := now }
        let db ← db.putDeletionJob p job
        .ok (deletionJob p job, db)
      else .error (.projectDeletionConflict "PROJECT_DELETION_NOT_FAILED")

/-! ## Claims -/

/-- A job that may be taken: due, or claimed with a lease that has run out. -/
def deletionClaimable (now : Time) (job : ProjectDeletionJobRow) : Bool :=
  (job.state == .pending && job.availableAt ≤ now)
    || (job.state == .claimed && job.leaseExpiresAt.any (· ≤ now))

/-- `ORDER BY available_at, created_at, project_id`. -/
def deletionJobBefore (a b : Uuid × ProjectDeletionJobRow) : Bool :=
  a.2.availableAt < b.2.availableAt || (a.2.availableAt == b.2.availableAt
    && (a.2.createdAt < b.2.createdAt || (a.2.createdAt == b.2.createdAt && a.1.hex ≤ b.1.hex)))

/-- The job `claim_next_deletion` takes: the first claimable one that is not locked by somebody
else. -/
def nextDeletion (db : Database) (locked : Uuid → Bool) (now : Time) :
    Option (Uuid × ProjectDeletionJobRow) :=
  (((db.deletionJobs.entries.filter fun e ↦ deletionClaimable now e.2 && !locked e.1).map fun e ↦
    (e.1, e.2)).insertionSort fun a b ↦ deletionJobBefore a b).head?

def claimNextDeletion (db : Database) (workerId : String) (leaseDuration : Time) (token : Uuid)
    (locked : Uuid → Bool) (now : ℕ → Time) :
    Except Exc (Option ProjectDeletionJobClaim × Database) :=
  match db.nextDeletion locked (now 0) with
  | none => .ok (none, db)
  | some (p, job) => do
    let job := { job with
      state := .claimed
      attempts := job.attempts + 1
      leaseOwner := some workerId
      leaseExpiresAt := some (now 1 + leaseDuration)
      claimToken := some token
      updatedAt := now 2 }
    let db ← db.putDeletionJob p job
    .ok (some {
      job := deletionJob p job
      token := token
      workerId := workerId
      leaseExpiresAt := now 1 + leaseDuration }, db)

/-- The fence of a claim on a job row: same owner and token, and a lease that is still running. -/
def holdsDeletion (job : ProjectDeletionJobRow) (claim : ProjectDeletionJobClaim) (now : Time) :
    Bool :=
  job.state == .claimed && job.leaseOwner == some claim.workerId
    && job.claimToken == some claim.token && job.leaseExpiresAt.any (now < ·)

/-- The update of the job row that a claim fences: `_lock_deletion_claim` and what follows it. -/
def updateDeletion (db : Database) (claim : ProjectDeletionJobClaim) (now : Time)
    (set : ProjectDeletionJobRow → ProjectDeletionJobRow) :
    Except Exc (ProjectDeletionJob × Database) :=
  match db.deletionJobs.lookup claim.job.projectId with
  | some job =>
    if holdsDeletion job claim now then do
      let db ← db.putDeletionJob claim.job.projectId (set job)
      .ok (deletionJob claim.job.projectId (set job), db)
    else .error .projectDeletionClaimLost
  | none => .error .projectDeletionClaimLost

def renewDeletion (db : Database) (claim : ProjectDeletionJobClaim) (leaseDuration : Time)
    (now : ℕ → Time) : Except Exc (Time × Database) := do
  let (_, db) ← db.updateDeletion claim (now 0) fun job ↦ { job with
    leaseExpiresAt := some (now 1 + leaseDuration)
    updatedAt := now 2 }
  .ok (now 1 + leaseDuration, db)

def advanceDeletion (db : Database) (claim : ProjectDeletionJobClaim)
    (expected next : ProjectDeletionPhase) (now : ℕ → Time) :
    Except Exc (ProjectDeletionJob × Database) :=
  if next.index ≠ expected.index + 1 then .error .value
  else if (db.deletionJobs.lookup claim.job.projectId).any fun job ↦
      holdsDeletion job claim (now 0) && job.phase != expected then
    .error .projectDeletionClaimLost
  else db.updateDeletion claim (now 0) fun job ↦ { job with phase := next, updatedAt := now 1 }

def failDeletion (db : Database) (claim : ProjectDeletionJobClaim) (code : String)
    (retryable : Bool) (now : ℕ → Time) : Except Exc (ProjectDeletionJob × Database) :=
  db.updateDeletion claim (now 0) fun job ↦ { job with
    state := .failed
    leaseOwner := none
    leaseExpiresAt := none
    claimToken := none
    lastErrorCode := some code
    lastErrorRetryable := some retryable
    updatedAt := now 1 }

/-- The update of `reschedule_deletion` and `defer_deletion`. -/
def releaseDeletion (db : Database) (claim : ProjectDeletionJobClaim) (availableAt : Time)
    (attempts : ℕ → ℕ) (now : ℕ → Time) : Except Exc (ProjectDeletionJob × Database) :=
  db.updateDeletion claim (now 0) fun job ↦ { job with
    state := .pending
    attempts := attempts job.attempts
    availableAt := availableAt
    leaseOwner := none
    leaseExpiresAt := none
    claimToken := none
    updatedAt := now 1 }

def rescheduleDeletion (db : Database) (claim : ProjectDeletionJobClaim) (availableAt : Time)
    (now : ℕ → Time) : Except Exc (ProjectDeletionJob × Database) :=
  db.releaseDeletion claim availableAt id now

def deferDeletion (db : Database) (claim : ProjectDeletionJobClaim) (availableAt : Time)
    (now : ℕ → Time) : Except Exc (ProjectDeletionJob × Database) :=
  db.releaseDeletion claim availableAt (fun n ↦ max (n - 1) 0) now

/-! ## Reads -/

/-- A deployment or its job is under way. -/
def underWay (db : Database) (d : Uuid) (row : Deployment) : Bool :=
  !row.status.isTerminal || (db.deploymentJobs.lookup d).any (·.state == .claimed)

def deletionOperationsDrained (db : Database) (p : Uuid) : Bool :=
  (db.deployments.entries.all fun e ↦ !(e.2.projectId == p && db.underWay e.1 e.2))
    && !((db.routeJobs.lookup p).any (·.state == .claimed))
    && db.reconciliations.entries.all fun e ↦
      !((db.deployments.lookup e.1).any (·.projectId == p)
        && (e.2.state == .pending || e.2.state == .claimed))

/-- `ORDER BY created_at, id`. -/
def deploymentBefore (a b : Deployment) : Bool :=
  a.createdAt < b.createdAt || (a.createdAt == b.createdAt && a.id.hex ≤ b.id.hex)

def deletionRuntimeSnapshot (db : Database) (p : Uuid) : List Deployment × Option ProjectRuntime :=
  (((db.deployments.entries.map Sigma.snd).filter (·.projectId = p)).insertionSort
    fun a b ↦ deploymentBefore a b, db.runtimes.lookup p)

/-- The route of a project has been taken down. -/
def routeRemoved (row : RouteRow) : Bool :=
  row.desiredState == .disabled && row.status == .inactive
    && row.appliedRevision == some row.desiredRevision && row.appliedHostname.isNone

/-- `deletion_is_applied` of the public routes. -/
def deletionIsApplied (db : Database) (p : Uuid) : Bool := (db.routes.lookup p).all routeRemoved

def deletionMutationAllowed (db : Database) (claim : ProjectDeletionJobClaim)
    (requireRouteRemoved : Bool) (now : Time) : Bool :=
  (db.deletionJobs.lookup claim.job.projectId).any (holdsDeletion · claim now)
    && db.statuses claim.job.projectId == some .deleting
    && (!requireRouteRemoved || db.deletionIsApplied claim.job.projectId)

/-! ## The end -/

/-- Delete the rows of a project from every table. -/
def eraseProject (db : Database) (p : Uuid) : Database :=
  let mine (d : Uuid) : Bool := (db.deployments.lookup d).any (·.projectId == p)
  { projects := db.projects.erase p
    environmentSecrets := eraseWhere db.environmentSecrets fun key ↦ key.1 == p
    databaseResources := db.databaseResources.erase p
    deployments := eraseWhere db.deployments mine
    deploymentJobs := eraseWhere db.deploymentJobs mine
    deploymentEvents := db.deploymentEvents.filter fun e ↦ !mine e.deploymentId
    deploymentDiagnostics := db.deploymentDiagnostics.filter fun a ↦ !mine a.deploymentId
    routes := db.routes.erase p
    routeJobs := db.routeJobs.erase p
    reconciliations := eraseWhere db.reconciliations mine
    deletionJobs := db.deletionJobs.erase p
    runtimes := db.runtimes.erase p }

def finalizeDeletion (status : Statuses) (db : Database) (claim : ProjectDeletionJobClaim)
    (now : Time) : Except Exc Database :=
  let p := claim.job.projectId
  if (db.deletionJobs.lookup p).any (fun job ↦
        holdsDeletion job claim now && job.phase == .metadataDelete)
      ∧ status p = some .deleting ∧ db.deletionIsApplied p then
    .ok (db.eraseProject p)
  else .error .projectDeletionClaimLost

end Database

end Heimdall
