import Heimdall.Projects.Configuration
import Heimdall.Runtime.Models
import Heimdall.Text.PosixPath
import Heimdall.Text.Sha256

/-!
# Reading a snapshot

`RuntimeDeployment.from_deployment` reads the snapshot of a deployment, and checks it on its own: a
snapshot was checked as a request before it was stored.
-/

namespace Heimdall

/-! ## Parts of a snapshot -/

def rejectSnapshot {α : Type} (message : String) : Except Exc α :=
  .error (.runtimeConfiguration message)

def requireObject (value : Json.Value) (message : String) : Except Exc Unit :=
  match value with
  | .obj _ => .ok ()
  | _ => rejectSnapshot message

/-- The text under a key, when it is accepted. -/
def requireText (accept : String → Bool) (value : Json.Value) (key message : String) :
    Except Exc { s : String // accept s = true } :=
  match value.get? key with
  | some (.str s) => if h : accept s = true then .ok ⟨s, h⟩ else rejectSnapshot message
  | _ => rejectSnapshot message

def requirePort (value : Json.Value) (key message : String) : Except Exc ℕ :=
  match value.get? key with
  | some (.int n) => if 1 ≤ n ∧ n ≤ 65535 then .ok n.toNat else rejectSnapshot message
  | _ => rejectSnapshot message

/-- The elements of a list that has some. -/
def requireList (value : Json.Value) (key message : String) : Except Exc (List Json.Value) :=
  match value.get? key with
  | some (.arr (x :: xs)) => .ok (x :: xs)
  | _ => rejectSnapshot message

/-- `_relative_path` -/
def relativePath (value : Json.Value) (key label : String) : Except Exc (List String) := do
  let text ← requireText (fun s ↦ s != "") value key (label ++ " is required")
  if text.1 = "." then .ok []
  else if PosixPath.isAbsolute text.1
      || (PosixPath.parts text.1).any fun part ↦ part ∈ ["", ".", ".."] then
    rejectSnapshot (label ++ " must be a canonical relative path")
  else .ok (PosixPath.parts text.1)

/-! ## Services -/

inductive RuntimeVariable where
  | plain (v : RuntimeEnvironment)
  | secret (v : RuntimeSecret)

def RuntimeVariable.name : RuntimeVariable → String
  | .plain v => v.name
  | .secret v => v.name

def RuntimeVariable.plain? : RuntimeVariable → Option RuntimeEnvironment
  | .plain v => some v
  | .secret _ => none

def RuntimeVariable.secret? : RuntimeVariable → Option RuntimeSecret
  | .plain _ => none
  | .secret v => some v

/-- Where the value of a secret variable is mounted. -/
def environmentPath (variableName : String) : String :=
  "/run/secrets/heimdall/environment/" ++ String.ofList (variableName.toList.map Char.toLower)

/-- One variable of an environment that already has the variables `names`. -/
def runtimeVariable (names : List String) (item : Json.Value) : Except Exc RuntimeVariable := do
  requireObject item "environment variable must be an object"
  let name ← requireText (fun n ↦ isEnvironmentName n && !names.contains n) item "name"
    "invalid or duplicate environment name"
  match item.get? "kind" with
  | some (.str "PLAIN") =>
    let value ← requireText (fun _ ↦ true) item "value" "plain environment value must be text"
    .ok (.plain ⟨name.1, value.1⟩)
  | some (.str "SECRET") =>
    let reference ← requireText (fun s ↦ s != "") item "secretReference"
      "secret reference is required"
    let fingerprint ← requireText Sha256.isHexdigest item "secretFingerprint"
      "secret fingerprint is required"
    .ok (.secret ⟨name.1, reference.1, fingerprint.1, environmentPath name.1⟩)
  | _ => rejectSnapshot "unknown environment kind"

/-- The loop of `_service` over the variables. -/
def runtimeVariables : List String → List Json.Value → Except Exc (List RuntimeVariable)
  | _, [] => .ok []
  | names, item :: items => do
    let first ← runtimeVariable names item
    let others ← runtimeVariables (names ++ [first.name]) items
    .ok (first :: others)

def rawEnvironment (value : Json.Value) : Except Exc (List Json.Value) :=
  match value.get? "environment" with
  | none => .ok []
  | some (.arr items) => .ok items
  | some _ => rejectSnapshot "service environment must be a list"

def databaseAccess (value : Json.Value) : Except Exc Bool :=
  match value.get? "projectDatabaseAccess" with
  | none => .ok false
  | some (.bool access) => .ok access
  | some _ => rejectSnapshot "project database access must be boolean"

/-- `_service` -/
def runtimeService (value : Json.Value) : Except Exc RuntimeService := do
  requireObject value "service must be an object"
  let name ← requireText isServiceName value "name" "invalid service name"
  let build := (value.get? "build").getD .null
  requireObject build "service build must be an object"
  let context ← relativePath build "context" "build context"
  let dockerfile ← relativePath build "dockerfile" "Dockerfile"
  let port ← requirePort value "internalPort" "invalid internal port"
  let healthPath ← requireText isHttpPath value "healthPath" "invalid health path"
  let environment ← runtimeVariables [] (← rawEnvironment value)
  let access ← databaseAccess value
  .ok
    { name := name.1
      buildContext := context
      dockerfile := dockerfile
      internalPort := port
      healthPath := healthPath.1
      environment := environment.filterMap RuntimeVariable.plain?
      secrets := environment.filterMap RuntimeVariable.secret?
      projectDatabaseAccess := access
      name_valid := name.2 }

/-! ## Routes and the database -/

/-- What `_route` accepts as a path. -/
def isRoutePath (path : String) : Bool :=
  isHttpPath path && !(path != "/" && path.toList.getLast? == some '/')

theorem isHttpPath_of_isRoutePath {path : String} (h : isRoutePath path = true) :
    isHttpPath path = true := by
  rw [isRoutePath, Bool.and_eq_true] at h
  exact h.1

/-- `_route`: looking up a list or an object in a set is a type error. -/
def runtimeRoute (names : List String) (value : Json.Value) :
    Except Exc { route : RuntimeRoute // route.service ∈ names } := do
  requireObject value "route must be an object"
  let path ← requireText isRoutePath value "path" "invalid route path"
  match value.get? "service" with
  | some (.str service) =>
    if h : service ∈ names then .ok ⟨⟨path.1, service, isHttpPath_of_isRoutePath path.2⟩, h⟩
    else rejectSnapshot "route references an unknown service"
  | some (.arr _) | some (.obj _) => .error .other
  | _ => rejectSnapshot "route references an unknown service"

/-- The metadata of a managed database. -/
def databaseMetadata (value : Json.Value) : Except Exc RuntimeDatabase := do
  requireObject value "managed database metadata must be an object"
  let required := fun key ↦
    requireText (fun s ↦ s != "") value key "managed database metadata is incomplete"
  let host ← required "host"
  let databaseName ← required "databaseName"
  let username ← required "username"
  let schemaName ← required "schemaName"
  let reference ← required "credentialReference"
  let fingerprint ← required "credentialFingerprint"
  let port ← requirePort value "port" "managed database port is invalid"
  if Sha256.isHexdigest fingerprint.1 then
    .ok
      { host := host.1
        port := port
        databaseName := databaseName.1
        username := username.1
        schemaName := schemaName.1
        credentialReference := reference.1
        credentialFingerprint := fingerprint.1 }
  else rejectSnapshot "managed database fingerprint is invalid"

/-- `_database` -/
def runtimeDatabase (value : Json.Value) : Except Exc (Option RuntimeDatabase) :=
  match value with
  | .null => .ok none
  | value => do
    let database ← databaseMetadata value
    .ok (some database)

/-! ## The snapshot -/

/-- `RuntimeDeployment.from_deployment` -/
def RuntimeDeployment.fromDeployment (d : Deployment) : Except Exc RuntimeDeployment := do
  let snapshot := d.configSnapshot
  requireObject snapshot "deployment snapshot must be an object"
  let rawServices ← requireList snapshot "services" "deployment snapshot requires services"
  let rawRoutes ← requireList snapshot "routes" "deployment snapshot requires routes"
  let services ← rawServices.mapM runtimeService
  if hnames : (services.map RuntimeService.name).Nodup then do
    let known ← rawRoutes.mapM (runtimeRoute (services.map RuntimeService.name))
    let routes := known.map Subtype.val
    if hpaths : (routes.map RuntimeRoute.path).Nodup ∧ "/" ∈ routes.map RuntimeRoute.path then do
      let database ← runtimeDatabase ((snapshot.get? "managedDatabase").getD .null)
      if services.any RuntimeService.projectDatabaseAccess && database.isNone then
        rejectSnapshot "database metadata is required by a service"
      else
        .ok
          { services := services
            routes := routes
            database := database
            names_nodup := hnames
            routes_known := fun route hroute ↦ by
              obtain ⟨known, -, rfl⟩ := List.mem_map.mp hroute
              exact known.2
            paths_nodup := hpaths.1
            root_mem := hpaths.2 }
    else rejectSnapshot "routes must be unique and include root"
  else rejectSnapshot "service names must be unique"

end Heimdall
