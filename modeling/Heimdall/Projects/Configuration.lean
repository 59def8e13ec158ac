import Heimdall.Deployments.Models
import Heimdall.Projects.Schemas
import Heimdall.Text.Json

/-!
# Stored configurations

The configuration of a project is a JSON document. A secret variable stands in it with the reference,
the version and the fingerprint of its value; `secretEntries` reads these entries off a document. A
deployment keeps a copy of the document, with the metadata of the managed database added, and
`snapshotPairs` are the references and fingerprints it has.
-/

namespace Json.Value

/-- The elements of the list a value has under a key. -/
def elemsAt (k : String) (v : Value) : List Value :=
  match v.get? k with
  | some (.arr xs) => xs
  | _ => []

def textAt (k : String) (v : Value) : Option String :=
  match v.get? k with
  | some (.str s) => some s
  | _ => none

def intAt (k : String) (v : Value) : Option Int :=
  match v.get? k with
  | some (.int n) => some n
  | _ => none

end Json.Value

namespace Heimdall

/-- A row of `project_environment_secrets`. -/
structure ProjectEnvironmentSecret where
  projectId : Uuid
  serviceName : String
  variableName : String
  secretReference : String
  secretVersion : ℕ
  secretFingerprint : String
  createdAt : Time
  updatedAt : Time
deriving DecidableEq

/-! ## The document -/

/-- A variable of a service with its value, or with where its value is kept. -/
inductive EnvironmentEntry where
  | plain (name value : String)
  | secret (name : String) (secret : ProjectEnvironmentSecret)
deriving DecidableEq

def EnvironmentEntry.json : EnvironmentEntry → Json.Value
  | .plain name value => .obj [("name", .str name), ("kind", .str "PLAIN"), ("value", .str value)]
  | .secret name s => .obj [("name", .str name), ("kind", .str "SECRET"),
    ("secretReference", .str s.secretReference), ("secretVersion", .int s.secretVersion),
    ("secretFingerprint", .str s.secretFingerprint)]

def EnvironmentEntry.secret? : EnvironmentEntry → Option ProjectEnvironmentSecret
  | .plain _ _ => none
  | .secret _ s => some s

/-- A service with its resolved environment. -/
structure ResolvedService where
  config : ServiceConfig
  environment : List EnvironmentEntry
deriving DecidableEq

def ResolvedService.json (s : ResolvedService) : Json.Value :=
  .obj [("name", .str s.config.name),
    ("build", .obj [("context", .str s.config.build.context),
      ("dockerfile", .str s.config.build.dockerfile)]),
    ("internalPort", .int s.config.internalPort), ("healthPath", .str s.config.healthPath),
    ("projectDatabaseAccess", .bool s.config.projectDatabaseAccess),
    ("environment", .arr (s.environment.map EnvironmentEntry.json))]

def RouteConfig.json (r : RouteConfig) : Json.Value :=
  .obj [("path", .str r.path), ("service", .str r.service)]

def deploymentConfig (services : List ResolvedService) (routes : List RouteConfig) : Json.Value :=
  .obj [("services", .arr (services.map ResolvedService.json)),
    ("routes", .arr (routes.map RouteConfig.json))]

def environmentSecrets (services : List ResolvedService) : List ProjectEnvironmentSecret :=
  services.flatMap fun s ↦ s.environment.filterMap EnvironmentEntry.secret?

/-! ## Its secret entries -/

/-- A secret variable as a document has it. -/
structure SecretEntry where
  serviceName : String
  variableName : String
  secretReference : String
  secretVersion : Int
  secretFingerprint : String
deriving DecidableEq

def SecretEntry.ofJson (serviceName : String) (item : Json.Value) : Option SecretEntry := do
  guard (item.textAt "kind" = some "SECRET")
  let variableName ← item.textAt "name"
  let secretReference ← item.textAt "secretReference"
  let secretVersion ← item.intAt "secretVersion"
  let secretFingerprint ← item.textAt "secretFingerprint"
  pure { serviceName, variableName, secretReference, secretVersion, secretFingerprint }

def secretEntries (config : Json.Value) : List SecretEntry :=
  (config.elemsAt "services").flatMap fun service ↦
    (service.elemsAt "environment").filterMap
      (SecretEntry.ofJson ((service.textAt "name").getD ""))

/-- The entry of a secret under the names of its service and its variable. -/
def SecretEntry.of (serviceName variableName : String) (secret : ProjectEnvironmentSecret) :
    SecretEntry where
  serviceName := serviceName
  variableName := variableName
  secretReference := secret.secretReference
  secretVersion := secret.secretVersion
  secretFingerprint := secret.secretFingerprint

/-- The entry a resolved variable of a service makes. -/
def EnvironmentEntry.entry? (serviceName : String) : EnvironmentEntry → Option SecretEntry
  | .plain _ _ => none
  | .secret name s => some (.of serviceName name s)

theorem SecretEntry.ofJson_json (serviceName : String) (e : EnvironmentEntry) :
    SecretEntry.ofJson serviceName e.json = e.entry? serviceName := by
  cases e with
  | plain name value => rfl
  | secret name secret => rfl

theorem secretEntries_deploymentConfig (services : List ResolvedService)
    (routes : List RouteConfig) : secretEntries (deploymentConfig services routes)
      = services.flatMap fun s ↦ s.environment.filterMap (EnvironmentEntry.entry? s.config.name) := by
  have hservices : (deploymentConfig services routes).elemsAt "services"
      = services.map ResolvedService.json := rfl
  rw [secretEntries, hservices, List.flatMap_map]
  refine List.flatMap_congr fun s _ ↦ ?_
  have henvironment : s.json.elemsAt "environment" = s.environment.map EnvironmentEntry.json := rfl
  have hname : s.json.textAt "name" = some s.config.name := rfl
  rw [henvironment, hname, List.filterMap_map]
  exact List.filterMap_congr fun e _ ↦ SecretEntry.ofJson_json s.config.name e

/-! ## Snapshots -/

/-- The copy a deployment keeps. -/
def configSnapshot (config : Json.Value) (databaseMetadata : Option Json.Value) : Json.Value :=
  match config, databaseMetadata with
  | .obj fields, some metadata => .obj (Json.setField "managedDatabase" metadata fields)
  | config, _ => config

/-- The references and fingerprints of a snapshot. -/
def snapshotPairs (snapshot : Json.Value) : List (String × String) :=
  (secretEntries snapshot).map (fun e ↦ (e.secretReference, e.secretFingerprint))
    ++ match snapshot.get? "managedDatabase" with
      | some metadata => match metadata.textAt "credentialReference",
          metadata.textAt "credentialFingerprint" with
        | some reference, some fingerprint => [(reference, fingerprint)]
        | _, _ => []
      | none => []

end Heimdall
