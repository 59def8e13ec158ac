import Heimdall.Text.Names

/-!
# Requests for project settings

A request is what its validators have accepted: `ProjectSettingsUpdate` carries their checks as a
field. The paths of a build have been stripped before.
-/

namespace Heimdall

/-! ## Patterns -/

/-- A full match of `[a-z][a-z0-9-]{0,31}`. -/
def isServiceName (s : String) : Bool :=
  match s.toList with
  | [] => false
  | c :: cs => c.isLower && cs.length ≤ 31 && cs.all fun c ↦ isLowerAlnum c || c == '-'

/-- A character of an environment name. -/
def isEnvironmentChar (c : Char) : Bool := c.isUpper || c.isDigit || c == '_'

/-- A full match of `[A-Z_][A-Z0-9_]{0,127}`. -/
def isEnvironmentName (s : String) : Bool :=
  match s.toList with
  | [] => false
  | c :: cs => (c.isUpper || c == '_') && cs.length ≤ 127 && cs.all isEnvironmentChar

def isHttpPathChar (c : Char) : Bool :=
  c.isAlphanum || c == '.' || c == '_' || c == '~' || c == '-'

/-- A full match of `/(?:[A-Za-z0-9._~-]+(?:/[A-Za-z0-9._~-]+)*)?`. -/
def isHttpPath (s : String) : Bool :=
  match s.toList with
  | '/' :: cs => cs.isEmpty || (cs.splitOn '/').all fun part ↦ !part.isEmpty && part.all isHttpPathChar
  | _ => false

/-- `_repository_relative_path` -/
def isRepositoryRelativePath (s : String) : Bool :=
  s == "." || (s.toList.splitOn '/').all fun part ↦ part ∉ [[], ['.'], ['.', '.']]

/-! ## Settings -/

structure ServiceBuild where
  context : String := "."
  dockerfile : String := "Dockerfile"
deriving DecidableEq

def ServiceBuild.isValid (b : ServiceBuild) : Bool :=
  b.context.length ≤ 512 && isRepositoryRelativePath b.context && b.dockerfile.length ≤ 512
    && isRepositoryRelativePath b.dockerfile

inductive EnvironmentVariableKind where
  | plain
  | secret
deriving DecidableEq

structure EnvironmentVariableInput where
  name : String
  kind : EnvironmentVariableKind := .plain
  value : Option String := none
deriving DecidableEq

def EnvironmentVariableInput.isValid (v : EnvironmentVariableInput) : Bool :=
  isEnvironmentName v.name && !"DATABASE_".toList.isPrefixOf v.name.toList
    && !"HEIMDALL_".toList.isPrefixOf v.name.toList && (v.kind == .secret || v.value.isSome)
    && v.value.all fun value ↦ value.length ≤ 8192 && !value.toList.contains '\x00'

structure ServiceConfig where
  name : String
  build : ServiceBuild
  internalPort : ℕ
  healthPath : String := "/health"
  environment : List EnvironmentVariableInput := []
  projectDatabaseAccess : Bool := false
deriving DecidableEq

def ServiceConfig.isValid (s : ServiceConfig) : Bool :=
  isServiceName s.name && s.build.isValid && 1 ≤ s.internalPort && s.internalPort ≤ 65535
    && s.healthPath.length ≤ 1024 && isHttpPath s.healthPath && s.environment.length ≤ 64
    && s.environment.all EnvironmentVariableInput.isValid
    && decide (s.environment.map EnvironmentVariableInput.name).Nodup

structure RouteConfig where
  path : String
  service : String
deriving DecidableEq

def RouteConfig.isValid (r : RouteConfig) : Bool :=
  r.path.length ≤ 1024 && isHttpPath r.path && r.service.length ≤ 32

structure DeploymentConfig where
  services : List ServiceConfig
  routes : List RouteConfig
deriving DecidableEq

def DeploymentConfig.isValid (c : DeploymentConfig) : Bool :=
  1 ≤ c.services.length && c.services.length ≤ 16 && 1 ≤ c.routes.length && c.routes.length ≤ 64
    && c.services.all ServiceConfig.isValid && c.routes.all RouteConfig.isValid
    && decide (c.services.map ServiceConfig.name).Nodup && decide (c.routes.map RouteConfig.path).Nodup
    && c.routes.any (·.path == "/") && c.routes.all fun r ↦ c.services.any (·.name == r.service)

/-- A request that its validators have accepted. -/
structure ProjectSettingsUpdate extends DeploymentConfig where
  expectedVersion : ℕ
  valid : toDeploymentConfig.isValid = true

/-! ## What a valid request is like -/

theorem ServiceConfig.isValid_cases {s : ServiceConfig} (h : s.isValid = true) :
    isServiceName s.name = true ∧ (∀ v ∈ s.environment, v.isValid = true)
      ∧ (s.environment.map EnvironmentVariableInput.name).Nodup := by
  simp only [isValid, Bool.and_eq_true, List.all_eq_true, decide_eq_true_eq] at h
  exact ⟨h.1.1.1.1.1.1.1.1, h.1.2, h.2⟩

namespace ProjectSettingsUpdate

variable {request : ProjectSettingsUpdate} {s : ServiceConfig} {v : EnvironmentVariableInput}

theorem names_nodup (request : ProjectSettingsUpdate) :
    (request.services.map ServiceConfig.name).Nodup := by
  have h := request.valid
  simp only [DeploymentConfig.isValid, Bool.and_eq_true, decide_eq_true_eq] at h
  exact h.1.1.1.2

theorem service_isValid (hs : s ∈ request.services) : s.isValid = true := by
  have h := request.valid
  simp only [DeploymentConfig.isValid, Bool.and_eq_true, List.all_eq_true] at h
  exact h.1.1.1.1.1.2 s hs

end ProjectSettingsUpdate

theorem EnvironmentVariableInput.isEnvironmentName {v : EnvironmentVariableInput}
    (h : v.isValid = true) : Heimdall.isEnvironmentName v.name = true := by
  simp only [isValid, Bool.and_eq_true] at h
  exact h.1.1.1.1

theorem EnvironmentVariableInput.value_of_plain {v : EnvironmentVariableInput}
    (h : v.isValid = true) (hkind : v.kind = .plain) : ∃ value, v.value = some value := by
  simp only [isValid, Bool.and_eq_true, hkind] at h
  exact Option.isSome_iff_exists.mp (by simpa using h.1.2)

end Heimdall
