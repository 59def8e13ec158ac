import Heimdall.Projects.Repository
import Heimdall.Secrets.Create

/-!
# Updates of project settings

`ProjectService.update_settings` under the lock of the project: it reads the project, gives every
variable of the request its entry, creating a new version of a secret wherever the request has a value
for it, and commits the document together with the rows of its secrets.

What is committed has one shape whatever the answers are (`SettingsMade`): the document and
the rows are made of the same entries, and each entry stands under the service and the variable it was
asked for.
-/

namespace Heimdall

open Effect

/-- What an update of settings does outside the program's memory. -/
inductive SettingsOp where
  /-- Enter `project_operation_lock`, waiting for it. -/
  | lock (p : Uuid)
  /-- Leave it. -/
  | unlock (p : Uuid)
  /-- `datetime.now(UTC)` -/
  | now
  /-- `get` of the project repository. -/
  | get (p : Uuid)
  | getEnvironmentSecret (p : Uuid) (serviceName variableName : String)
  | secret (o : SecretOp)
  /-- `update_settings` of the project repository. -/
  | updateSettings (p : Uuid) (expectedVersion : ℕ) (config : Json.Value)
    (secrets : List ProjectEnvironmentSecret)

abbrev SettingsOp.Ans : SettingsOp → Type
  | .lock _ | .unlock _ => Unit
  | .now => Time
  | .get _ | .updateSettings _ _ _ _ => Project
  | .getEnvironmentSecret _ _ _ => Option ProjectEnvironmentSecret
  | .secret o => o.Ans

/-- A program of the settings API. -/
abbrev SettingsApi (α : Type) : Type := Prog SettingsOp SettingsOp.Ans Exc α

namespace SettingsApi

def raise {α : Type} (x : Exc) : SettingsApi α := Prog.raise x

def op (o : SettingsOp) : SettingsApi o.Ans := Prog.op o

/-- Perform a program of the secret store. -/
def store {α : Type} (p : SecretProg α) : SettingsApi α := p.embed .secret fun _ a ↦ a

/-- `ProjectService.get` -/
def project (p : Uuid) : SettingsApi Project :=
  (op (.get p)).tryCatch fun
    | .projectNotFound => raise (.appError 404 "PROJECT_NOT_FOUND" "Project was not found")
    | x => raise x

end SettingsApi

/-- The directory of the secret environment variables of a project. -/
def environmentRoot (p : Uuid) : List String := ["projects", p.str, "environment"]

/-- The directory of the versions of a variable. -/
def variableRoot (p : Uuid) (serviceName variableName : String) : List String :=
  environmentRoot p ++ [serviceName, variableName.toLower]

/-- `ProjectService`, as far as it stores settings. -/
structure ProjectService where
  /-- There is a secret store. -/
  secretStore : Bool

namespace ProjectService

variable (service : ProjectService)

/-- The entry of one variable. -/
def resolveVariable (p : Uuid) (now : Time) (serviceName : String) (v : EnvironmentVariableInput) :
    SettingsApi EnvironmentEntry :=
  match v.kind with
  | .plain => pure (.plain v.name (v.value.getD ""))
  | .secret => do
    let current ← SettingsApi.op (.getEnvironmentSecret p serviceName v.name)
    match v.value with
    | none =>
      match current with
      | none => SettingsApi.raise (.appError 400 "SECRET_VALUE_REQUIRED"
          ("Provide a value for " ++ serviceName ++ "." ++ v.name))
      | some current => pure (.secret v.name current)
    | some value =>
      if !service.secretStore then
        SettingsApi.raise (.appError 503 "SECRET_STORAGE_UNAVAILABLE"
          "Project secret storage is not configured")
      else do
        let version := match current with
          | none => 1
          | some current => current.secretVersion + 1
        let stored ← SettingsApi.store (FileSecretStore.create
          (PosixPath.asPosix (variableRoot p serviceName v.name)) version (some value))
        pure (.secret v.name {
          projectId := p
          serviceName := serviceName
          variableName := v.name
          secretReference := stored.reference
          secretVersion := stored.version
          secretFingerprint := stored.fingerprint
          createdAt := (current.map (·.createdAt)).getD now
          updatedAt := now })

def resolveService (p : Uuid) (now : Time) (config : ServiceConfig) : SettingsApi ResolvedService := do
  let environment ← config.environment.mapM (service.resolveVariable p now config.name)
  pure { config, environment }

/-- `_resolve_configuration` -/
def resolveConfiguration (p : Uuid) (request : ProjectSettingsUpdate) :
    SettingsApi (Json.Value × List ProjectEnvironmentSecret) := do
  let now ← SettingsApi.op .now
  let services ← request.services.mapM (service.resolveService p now)
  pure (deploymentConfig services request.routes, environmentSecrets services)

/-- `_update_settings` -/
def updateSettingsLocked (p : Uuid) (request : ProjectSettingsUpdate) : SettingsApi Project := do
  let current ← SettingsApi.project p
  if current.status = .deleting then
    SettingsApi.raise (.appError 409 "PROJECT_DELETING" "Project deletion is in progress")
  else if current.configVersion ≠ request.expectedVersion then
    SettingsApi.raise (.appError 409 "PROJECT_VERSION_CONFLICT"
      "Reload the project and apply settings again")
  else do
    let (config, secrets) ← service.resolveConfiguration p request
    SettingsApi.op (.updateSettings p request.expectedVersion config secrets)

/-- The exceptions of an update that have an answer of their own. -/
def settingsError : Exc → Exc
  | .projectNotFound => .appError 404 "PROJECT_NOT_FOUND" "Project was not found"
  | .projectVersionConflict =>
    .appError 409 "PROJECT_VERSION_CONFLICT" "Reload the project and apply settings again"
  | .projectDeletionConflict "PROJECT_DELETING" =>
    .appError 409 "PROJECT_DELETING" "Project deletion is in progress"
  | .secretStore | .secretStoreBusy =>
    .appError 500 "SECRET_STORAGE_FAILED" "Could not store the project secret safely"
  | x => x

/-- `update_settings` -/
def updateSettings (p : Uuid) (request : ProjectSettingsUpdate) : SettingsApi Project :=
  Prog.tryCatch
    (if service.secretStore then do
      SettingsApi.op (.lock p)
      Prog.tryFinally (service.updateSettingsLocked p request) (SettingsApi.op (.unlock p))
    else service.updateSettingsLocked p request)
    fun x ↦ SettingsApi.raise (settingsError x)

end ProjectService

/-! ## What is committed -/

/-- An entry of a request: a plain variable, or a secret that belongs to the project, the service and
the variable. -/
def EnvironmentEntry.Belongs (p : Uuid) (serviceName : String) (v : EnvironmentVariableInput) :
    EnvironmentEntry → Prop
  | .plain name value => name = v.name ∧ v.kind = .plain ∧ v.value = some value
  | .secret name s => name = v.name ∧ v.kind = .secret ∧ s.key = (p, serviceName, v.name)

/-- The entries of a service are those of its variables, in their order. -/
def ResolvedService.Belongs (p : Uuid) (config : ServiceConfig) (s : ResolvedService) : Prop :=
  s.config = config ∧ List.Forall₂ (EnvironmentEntry.Belongs p config.name) config.environment
    s.environment

/-- What a request makes of its services. -/
def ResolvesTo (p : Uuid) (request : ProjectSettingsUpdate) (services : List ResolvedService) : Prop :=
  List.Forall₂ (ResolvedService.Belongs p) request.services services

namespace ResolvesTo

variable {p : Uuid} {request : ProjectSettingsUpdate} {services : List ResolvedService}

/-- A secret of a service belongs to the project and stands under the names of its entry. -/
theorem mem_secrets {config : ServiceConfig} {s : ResolvedService} (h : s.Belongs p config)
    {name : String} {secret : ProjectEnvironmentSecret} (hmem : .secret name secret ∈ s.environment) :
    secret.key = (p, s.config.name, name) ∧ ∃ v ∈ config.environment, v.name = name := by
  obtain ⟨rfl, hentries⟩ := h
  obtain ⟨v, hv, hbelongs⟩ := exists_of_mem_right hentries hmem
  obtain ⟨rfl, -, hkey⟩ := hbelongs
  exact ⟨hkey, v, hv, rfl⟩

end ResolvesTo

end Heimdall
