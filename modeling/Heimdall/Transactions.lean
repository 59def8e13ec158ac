import Heimdall.Deployments.History
import Heimdall.Effect.Locking
import Heimdall.Projects.Deletion
import Heimdall.PublicRoutes.Fencing

/-!
# Transactions

Every transaction of every repository as one type, `DatabaseCall`. A transaction that depends on the
status of a project locks the row of the project, reads the status, and goes on with what it has read;
`DatabaseCall.exec` is given these readings. `DatabaseCall.locks` are the project rows a transaction
has locked when it commits: it writes no status of another project (`exec_statuses`), so the database
is a `LockedStore`.
-/

namespace Heimdall

open Effect

/-! ## Calls -/

inductive ReconciliationCall where
  | request (d : Uuid) (action : ReconciliationAction) (requestedBy : ReconciliationRequester)
  | scheduleAutomatic (candidates : List (Uuid × Time))
  | claimNext (workerId : String) (leaseDuration : Time) (token : Uuid) (locked : Uuid → Bool)
  | renew (claim : RuntimeReconciliationClaim) (leaseDuration : Time)
  | resolve (claim : RuntimeReconciliationClaim) (result : ReconciliationResult) (code : String)
  | block (claim : RuntimeReconciliationClaim) (code : String)
  | retry (claim : RuntimeReconciliationClaim) (availableAt : Time) (code : String)

def ReconciliationCall.exec (now : Time) (db : ReconciliationDb) :
    ReconciliationCall → Except Exc (Option RuntimeReconciliationClaim × ReconciliationDb)
  | .request d action requestedBy => (db.request d action requestedBy now).map fun r ↦ (none, r.2)
  | .scheduleAutomatic candidates => (db.scheduleAutomatic candidates now).map fun db ↦ (none, db)
  | .claimNext workerId leaseDuration token locked =>
    db.claimNext workerId leaseDuration token locked now
  | .renew claim leaseDuration => (db.renew claim leaseDuration now).map fun r ↦ (none, r.2)
  | .resolve claim result code => (db.resolve claim result code now).map fun r ↦ (none, r.2)
  | .block claim code => (db.block claim code now).map fun r ↦ (none, r.2)
  | .retry claim availableAt code => (db.retry claim availableAt code now).map fun r ↦ (none, r.2)

inductive ResourceCall where
  | ensureIntent (p id : Uuid)
  | beginRetry (r : ProjectDatabaseResource)
  | recordSecret (r : ProjectDatabaseResource) (reference : String) (version : ℕ)
    (fingerprint : String)
  | advance (r : ProjectDatabaseResource) (phase : ProjectDatabasePhase)
  | markFailed (r : ProjectDatabaseResource) (stage code : String)

def ResourceCall.exec (now : Time) (db : ResourceDb) :
    ResourceCall → Except Exc (ProjectDatabaseResource × ResourceDb)
  | .ensureIntent p id => db.ensureIntent p id now
  | .beginRetry r => db.beginRetry r now
  | .recordSecret r reference version fingerprint => db.recordSecret r reference version fingerprint now
  | .advance r phase => db.advance r phase now
  | .markFailed r stage code => db.markFailed r stage code now

inductive DeletionCall where
  | request (p : Uuid) (c : Database.DeletionConfirmation)
  | retry (p : Uuid) (c : Database.DeletionConfirmation)
  | claimNext (workerId : String) (leaseDuration : Time) (token : Uuid) (locked : Uuid → Bool)
  | renew (claim : ProjectDeletionJobClaim) (leaseDuration : Time)
  | advance (claim : ProjectDeletionJobClaim) (expected next : ProjectDeletionPhase)
  | fail (claim : ProjectDeletionJobClaim) (code : String) (retryable : Bool)
  | reschedule (claim : ProjectDeletionJobClaim) (availableAt : Time)
  | defer (claim : ProjectDeletionJobClaim) (availableAt : Time)
  | finalize (claim : ProjectDeletionJobClaim)

def DeletionCall.exec (status : Statuses) (now : ℕ → Time) (db : Database) :
    DeletionCall → Except Exc (Option ProjectDeletionJobClaim × Database)
  | .request p c => (db.requestDeletion status p c (now 0)).map fun r ↦ (none, r.2)
  | .retry p c => (db.retryDeletion status p c (now 0)).map fun r ↦ (none, r.2)
  | .claimNext workerId leaseDuration token locked =>
    db.claimNextDeletion workerId leaseDuration token locked now
  | .renew claim leaseDuration => (db.renewDeletion claim leaseDuration now).map fun r ↦ (none, r.2)
  | .advance claim expected next =>
    (db.advanceDeletion claim expected next now).map fun r ↦ (none, r.2)
  | .fail claim code retryable => (db.failDeletion claim code retryable now).map fun r ↦ (none, r.2)
  | .reschedule claim availableAt =>
    (db.rescheduleDeletion claim availableAt now).map fun r ↦ (none, r.2)
  | .defer claim availableAt => (db.deferDeletion claim availableAt now).map fun r ↦ (none, r.2)
  | .finalize claim => (db.finalizeDeletion status claim (now 0)).map fun db ↦ (none, db)

/-- A transaction of the program. -/
inductive DatabaseCall where
  | createProject (id : Uuid) (name repositoryUrl : String)
  | updateSettings (p : Uuid) (expectedVersion : ℕ) (config : Json.Value)
    (secrets : List ProjectEnvironmentSecret)
  | deployment (call : DeploymentCall) (eventId : ℕ)
  | route (call : RouteCall)
  | reconciliation (call : ReconciliationCall)
  | resource (call : ResourceCall)
  | deletion (call : DeletionCall)
  /-- `ensure_gateway` and `activate`, which write the row of `project_runtimes`. -/
  | runtime (p : Uuid) (row : ProjectRuntime)
  /-- `purge_expired_diagnostics`, with the rows it finds. -/
  | purgeDiagnostics (expired : List Uuid)

namespace Database

/-- The projects and their settings, after a write. -/
def putProjectDb (db : Database) (view : ProjectDb) : Database := { db with toProjectDb := view }

end Database

namespace DatabaseCall

/-- Run a transaction that has read these statuses. -/
def exec (status : Statuses) (now : ℕ → Time) (db : Database) :
    DatabaseCall → Except Exc Database
  | .createProject id name repositoryUrl =>
    (db.toProjectDb.create id name repositoryUrl (now 0)).map fun r ↦ db.putProjectDb r.2
  | .updateSettings p expectedVersion config secrets =>
    (db.toProjectDb.updateSettings p expectedVersion config secrets (now 0)).map fun r ↦
      db.putProjectDb r.2
  | .deployment call eventId =>
    (call.exec eventId (now 0) (db.deploymentDb status)).map fun r ↦ db.putDeploymentDb r.2
  | .route call => (call.exec now (db.routeDb status)).map fun r ↦ db.putRouteDb r.2
  | .reconciliation call =>
    (call.exec (now 0) (db.reconciliationDb status)).map fun r ↦ db.putReconciliationDb r.2
  | .resource call => (call.exec (now 0) (db.resourceDb status)).map fun r ↦ db.putResourceDb r.2
  | .deletion call => (call.exec status now db).map Prod.snd
  | .runtime p row => .ok { db with runtimes := db.runtimes.insert p row }
  | .purgeDiagnostics expired => .ok { db with
    deploymentDiagnostics := db.deploymentDiagnostics.filter (·.id ∉ expired) }

/-- The project of a deployment, if there is one. -/
def projectOf (db : Database) (d : Uuid) : List Uuid :=
  ((db.deployments.lookup d).map (·.projectId)).toList

/-- The rows of `projects` a transaction has locked when it commits. -/
def locks (db : Database) : DatabaseCall → List Uuid
  | .createProject id _ _ => [id]
  | .updateSettings p _ _ _ => [p]
  | .deployment (.create _ request) _ => [request.projectId]
  | .deployment _ _ => []
  | .route (.setEnabled p _ _ _) | .route (.disable p _) | .route (.disableForDeletion p _) => [p]
  | .route _ => []
  | .reconciliation (.request d _ _) => projectOf db d
  | .reconciliation (.scheduleAutomatic candidates) => candidates.flatMap fun c ↦ projectOf db c.1
  | .reconciliation _ => []
  | .resource (.ensureIntent p _) => [p]
  | .resource _ => []
  | .deletion (.request p _) | .deletion (.retry p _) => [p]
  | .deletion (.finalize claim) => [claim.job.projectId]
  | .deletion _ => []
  | .runtime _ _ | .purgeDiagnostics _ => []

end DatabaseCall

end Heimdall
