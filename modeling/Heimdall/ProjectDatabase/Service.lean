import Heimdall.ProjectDatabase.Repository
import Heimdall.Effect.Program
import Heimdall.Secrets.Store

/-!
# Provisioning project databases

`ProjectDatabaseService.provision` creates the role and the database of a project on the managed
server, step by step. The row of the resource says how far it has come, so a call that fails is
continued by the next. Two locks are held meanwhile: an advisory lock of the managed server, for the
resource, and the row of the project.
-/

namespace Heimdall

open Effect

/-- An exception of the database driver (`psycopg.Error`). -/
def Exc.isDriver : Exc → Bool
  | .database | .uniqueViolation | .checkViolation => true
  | _ => false

/-! ## What a provisioning does outside the program's memory -/

/-- An operation of the repository that writes. -/
inductive ResourceOp where
  | ensureIntent (p : Uuid)
  | beginRetry (r : ProjectDatabaseResource)
  | recordSecret (r : ProjectDatabaseResource) (secret : StoredSecret)
  | advance (r : ProjectDatabaseResource) (phase : ProjectDatabasePhase)
  | markFailed (r : ProjectDatabaseResource) (stage code : String)

inductive ProvisionOp where
  /-- `get` of the project repository. -/
  | project (p : Uuid)
  /-- Enter and leave `lock_for_external_operation`. -/
  | lockProject (p : Uuid)
  | unlockProject (p : Uuid)
  /-- Enter and leave the advisory lock of a resource. -/
  | lockResource (id : Uuid)
  | unlockResource (id : Uuid)
  | getForProject (p : Uuid)
  | resource (op : ResourceOp)
  /-- `create` of the secret store, with a value the store draws. -/
  | createSecret (path : String) (version : ℕ)
  | readSecret (reference fingerprint : String)
  | ensureRole (id : Uuid) (roleName password : String)
  | ensureDatabase (id : Uuid) (databaseName : String)
  | ensurePrivileges (databaseName roleName schemaName : String)
  | verifyLogin (databaseName roleName schemaName password : String)

abbrev ProvisionOp.Ans : ProvisionOp → Type
  | .project _ | .lockProject _ => Project
  | .getForProject _ => Option ProjectDatabaseResource
  | .resource _ => ProjectDatabaseResource
  | .createSecret _ _ => StoredSecret
  | .readSecret _ _ => String
  | _ => Unit

abbrev Provision (α : Type) : Type := Prog ProvisionOp ProvisionOp.Ans Exc α

namespace Provision

def raise {α : Type} (x : Exc) : Provision α := Prog.raise x

def op (o : ProvisionOp) : Provision o.Ans := Prog.op o

def resource (o : ResourceOp) : Provision ProjectDatabaseResource := op (.resource o)

/-- `ProjectService.get` -/
def project (p : Uuid) : Provision Project :=
  (op (.project p)).tryCatch fun
    | .projectNotFound => raise (.appError 404 "PROJECT_NOT_FOUND" "Project was not found")
    | x => raise x

/-- `ProjectService.ready` -/
def ready (p : Uuid) : Provision Project := do
  let project ← project p
  .ofExcept project.ensureReady

/-- `ProjectService.locked_ready` -/
def lockedReady {α : Type} (p : Uuid) (body : Project → Provision α) : Provision α :=
  (do
    let project ← op (.lockProject p)
    (Prog.ofExcept project.ensureReady >>= body).tryFinally (op (.unlockProject p))).tryCatch fun
      | .projectNotFound => raise (.appError 404 "PROJECT_NOT_FOUND" "Project was not found")
      | x => raise x

/-- `operation_lock`: an error of the database driver counts as one of the lock, also when the body
has raised it. -/
def operationLock {α : Type} (id : Uuid) (body : Provision α) : Provision α :=
  (do
    op (.lockResource id)
    body.tryFinally (op (.unlockResource id))).tryCatch fun x ↦
      if x.isDriver then raise (.projectDatabaseProvisioning "DELETE" "OPERATION_LOCK_FAILED")
      else raise x

end Provision

/-! ## The service -/

/-- The services of a configuration that are connected to the managed database. -/
def connectedServices (config : Json.Value) : List Json.Value :=
  (config.elemsAt "services").filter fun service ↦
    match service.get? "projectDatabaseAccess" with
    | some (.bool access) => access
    | _ => false

/-- `_connected_services` -/
def connectedNames (project : Project) : List String :=
  ((connectedServices (project.deploymentConfig.getD (.obj []))).filterMap
    (Json.Value.textAt "name")).insertionSort fun a b ↦ a ≤ b

/-- Where services find the managed databases. -/
structure ProjectDatabaseEndpoint where
  runtimeHost : String
  runtimePort : ℕ

/-- What the API says about a resource. -/
structure ProjectDatabaseRead where
  required : Bool := true
  status : ProjectDatabaseStatus
  id : Uuid
  phase : ProjectDatabasePhase
  databaseName : String
  username : String
  schemaName : String
  host : String
  port : ℕ
  connectedServices : List String
  failureStage : Option String
  failureCode : Option String
  updatedAt : Time

/-- `ProjectDatabaseService`, with whether a managed server is configured. -/
structure ProjectDatabaseService extends ProjectDatabaseEndpoint where
  hasProvisioner : Bool

namespace ProjectDatabaseService

/-- `_read` -/
def read (service : ProjectDatabaseService) (r : ProjectDatabaseResource)
    (connectedServices : List String) : ProjectDatabaseRead where
  status := r.status
  id := r.id
  phase := r.phase
  databaseName := r.databaseName
  username := r.roleName
  schemaName := r.schemaName
  host := service.runtimeHost
  port := service.runtimePort
  connectedServices := connectedServices
  failureStage := r.failureStage
  failureCode := r.failureCode
  updatedAt := r.updatedAt

/-- `_credential` -/
def credential (r : ProjectDatabaseResource) : Provision String :=
  match r.credentialReference, r.credentialFingerprint with
  | some reference, some fingerprint => Provision.op (.readSecret reference fingerprint)
  | _, _ => Provision.raise .secretStore

/-- Where the secret of a resource is kept. -/
def credentialPath (r : ProjectDatabaseResource) : String :=
  "projects/" ++ r.projectId.str ++ "/database/" ++ r.id.str ++ "/credentials"

/-- One step of `_reconcile`: it is left out unless the resource is in its phase. -/
def step (phase next : ProjectDatabasePhase) (ensure : ProjectDatabaseResource → Provision Unit)
    (r : ProjectDatabaseResource) : Provision ProjectDatabaseResource :=
  if r.phase = phase then do
    ensure r
    Provision.resource (.advance r next)
  else pure r

def recordSecret (r : ProjectDatabaseResource) : Provision ProjectDatabaseResource :=
  if r.phase = .intentRecorded then do
    let secret ← Provision.op (.createSecret (credentialPath r) 1)
    Provision.resource (.recordSecret r secret)
  else pure r

/-- `_reconcile` -/
def reconcile (r : ProjectDatabaseResource) : Provision ProjectDatabaseResource := do
  let r ← recordSecret r
  let password ← credential r
  let r ← step .secretReady .roleReady
    (fun r ↦ Provision.op (.ensureRole r.id r.roleName password)) r
  let r ← step .roleReady .databaseReady
    (fun r ↦ Provision.op (.ensureDatabase r.id r.databaseName)) r
  let r ← step .databaseReady .privilegesReady
    (fun r ↦ Provision.op (.ensurePrivileges r.databaseName r.roleName r.schemaName)) r
  step .privilegesReady .active
    (fun r ↦ Provision.op (.verifyLogin r.databaseName r.roleName r.schemaName password)) r

def beginRetry (r : ProjectDatabaseResource) : Provision ProjectDatabaseResource :=
  if r.status = .failed then Provision.resource (.beginRetry r) else pure r

/-- The body of the `with` statement, with the resource as it was read before the locks were taken. -/
def provisionLocked (service : ProjectDatabaseService) (r : ProjectDatabaseResource)
    (project : Project) : Provision (ProjectDatabaseResource × List String) := do
  if r.status = .active then pure (r, connectedNames project)
  else do
    let r ← beginRetry r
    let r ← reconcile r
    pure (r, connectedNames project)

/-- The stage and the code a failure is recorded with. -/
def failureOf : Exc → Option (String × String)
  | .projectDatabaseProvisioning stage code => some (stage, code)
  | .secretStore => some ("SECRET", "SECRET_FAILED")
  | _ => none

/-- The `except` clauses of `provision`: the failure is recorded in the row as it is now. -/
def handleFailure {α : Type} (p : Uuid) (r : ProjectDatabaseResource) (x : Exc) : Provision α :=
  match x with
  | .projectDatabaseVersionConflict => Provision.raise (.appError 409 "PROJECT_DATABASE_CONFLICT"
      "Database provisioning changed; reload its status")
  | x =>
    match failureOf x with
    | some (stage, code) => do
      let latest ← Provision.op (.getForProject p)
      let _ ← Provision.resource (.markFailed (latest.getD r) stage code)
      Provision.raise (.appError 503 "PROJECT_DATABASE_PROVISIONING_FAILED"
        "Managed PostgreSQL provisioning did not complete")
    | none => Provision.raise x

def ensureIntent (p : Uuid) : Provision ProjectDatabaseResource :=
  (Provision.resource (.ensureIntent p)).tryCatch fun
    | .projectDatabaseProjectDeleting =>
      Provision.raise (.appError 409 "PROJECT_DELETING" "Project deletion is in progress")
    | x => Provision.raise x

def provision (service : ProjectDatabaseService) (p : Uuid) : Provision ProjectDatabaseRead := do
  let project ← Provision.ready p
  if (connectedNames project).isEmpty then
    Provision.raise (.appError 409 "PROJECT_DATABASE_NOT_REQUESTED"
      "Enable PostgreSQL for at least one service first")
  else if !service.hasProvisioner then
    Provision.raise (.appError 503 "PROJECT_DATABASE_DISABLED"
      "Managed project PostgreSQL is not configured")
  else do
    let r ← ensureIntent p
    let result ← (Provision.operationLock r.id (Provision.lockedReady p (service.provisionLocked r))).tryCatch
      (handleFailure p r)
    pure (service.read result.1 result.2)

end ProjectDatabaseService

end Heimdall
