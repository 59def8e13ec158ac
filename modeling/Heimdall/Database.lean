import Heimdall.Deployments.Repository
import Heimdall.ProjectDatabase.Repository
import Heimdall.Runtime.Reconciliations

/-!
# The database

All tables together. A repository reads and writes its own tables, and of the projects mostly only
their statuses; it sees them through a view (`deploymentDb`, `routeDb`, `reconciliationDb`,
`resourceDb`) into which the statuses are put as they were read.
-/

namespace Heimdall

/-! ## Deletion jobs -/

inductive ProjectDeletionState where
  | pending
  | claimed
  | failed
deriving DecidableEq

inductive ProjectDeletionPhase where
  | requested
  | waitingForOperations
  | routeDisabling
  | routeRemoved
  | runtimeCleanup
  | databaseQuiescing
  | databaseDropDatabase
  | databaseDropRole
  | secretCleanup
  | metadataDelete
deriving DecidableEq

/-- The place of a phase in the order of phases. -/
def ProjectDeletionPhase.index : ProjectDeletionPhase → ℕ
  | .requested => 0
  | .waitingForOperations => 1
  | .routeDisabling => 2
  | .routeRemoved => 3
  | .runtimeCleanup => 4
  | .databaseQuiescing => 5
  | .databaseDropDatabase => 6
  | .databaseDropRole => 7
  | .secretCleanup => 8
  | .metadataDelete => 9

/-- A row of `project_deletion_jobs` apart from its key. -/
structure ProjectDeletionJobRow where
  state : ProjectDeletionState
  phase : ProjectDeletionPhase
  attempts : ℕ := 0
  availableAt : Time
  leaseOwner : Option String := none
  leaseExpiresAt : Option Time := none
  claimToken : Option Uuid := none
  lastErrorCode : Option String := none
  lastErrorRetryable : Option Bool := none
  deleteManagedDatabase : Bool
  createdAt : Time
  updatedAt : Time
deriving DecidableEq

structure ProjectDeletionJob extends ProjectDeletionJobRow where
  projectId : Uuid
deriving DecidableEq

/-- What a worker is given when it takes a deletion job. -/
structure ProjectDeletionJobClaim where
  job : ProjectDeletionJob
  token : Uuid
  workerId : String
  leaseExpiresAt : Time
deriving DecidableEq

/-- The column types of `project_deletion_jobs`. -/
def ProjectDeletionJobRow.fits (j : ProjectDeletionJobRow) : Bool :=
  j.attempts < 2 ^ 31 && j.leaseOwner.all (·.length ≤ 128) && j.lastErrorCode.all (·.length ≤ 64)

/-- The `CHECK` constraints of `project_deletion_jobs`. -/
def ProjectDeletionJobRow.checks (j : ProjectDeletionJobRow) : Bool :=
  (if j.state = .claimed then
      j.leaseOwner.isSome && j.leaseExpiresAt.isSome && j.claimToken.isSome
    else j.leaseOwner.isNone && j.leaseExpiresAt.isNone && j.claimToken.isNone)
    && (if j.state = .failed then j.lastErrorCode.isSome && j.lastErrorRetryable.isSome
      else j.lastErrorCode.isNone && j.lastErrorRetryable.isNone)

/-! ## Tables -/

structure Database extends ProjectDb where
  deployments : AList fun _ : Uuid ↦ Deployment
  deploymentJobs : AList fun _ : Uuid ↦ DeploymentJobRow
  deploymentEvents : List DeploymentEvent
  deploymentDiagnostics : List DiagnosticArtifactRow
  /-- `project_public_routes`. -/
  routes : AList fun _ : Uuid ↦ RouteRow
  /-- `public_route_jobs`. -/
  routeJobs : AList fun _ : Uuid ↦ JobRow
  /-- `runtime_reconciliations`. -/
  reconciliations : AList fun _ : Uuid ↦ RuntimeReconciliationRow
  /-- `project_deletion_jobs`. -/
  deletionJobs : AList fun _ : Uuid ↦ ProjectDeletionJobRow
  /-- `project_runtimes`. -/
  runtimes : AList fun _ : Uuid ↦ ProjectRuntime

/-- The statuses of projects, as somebody has read them. -/
abbrev Statuses : Type := Uuid → Option ProjectStatus

namespace Database

def empty : Database where
  toProjectDb := .empty
  deployments := ∅
  deploymentJobs := ∅
  deploymentEvents := []
  deploymentDiagnostics := []
  routes := ∅
  routeJobs := ∅
  reconciliations := ∅
  deletionJobs := ∅
  runtimes := ∅

def statuses (db : Database) : Statuses := fun p ↦ (db.projects.lookup p).map (·.status)

/-! ### Views -/

def deploymentDb (db : Database) (status : Statuses) : DeploymentDb where
  projects := status
  deployments := db.deployments
  jobs := db.deploymentJobs
  events := db.deploymentEvents
  diagnostics := db.deploymentDiagnostics

def putDeploymentDb (db : Database) (view : DeploymentDb) : Database :=
  { db with
    deployments := view.deployments
    deploymentJobs := view.jobs
    deploymentEvents := view.events
    deploymentDiagnostics := view.diagnostics }

def routeDb (db : Database) (status : Statuses) : RouteDb where
  projects := status
  routes := db.routes
  jobs := db.routeJobs

def putRouteDb (db : Database) (view : RouteDb) : Database :=
  { db with routes := view.routes, routeJobs := view.jobs }

def reconciliationDb (db : Database) (status : Statuses) : ReconciliationDb where
  projects := status
  deployments d := (db.deployments.lookup d).map (·.projectId)
  reconciliations := db.reconciliations

def putReconciliationDb (db : Database) (view : ReconciliationDb) : Database :=
  { db with reconciliations := view.reconciliations }

def resourceDb (db : Database) (status : Statuses) : ResourceDb where
  projects := status
  resources := db.databaseResources

def putResourceDb (db : Database) (view : ResourceDb) : Database :=
  { db with databaseResources := view.resources }

end Database

end Heimdall
