import Heimdall.Errors
import Heimdall.Projects.Schemas

/-!
# The runtime configuration of a deployment

What a deployment's snapshot says about the services to run and the routes to them, once it has been
accepted. The names of the services and the paths of the routes are distinct and follow their
patterns, and one route has the path `/`.
-/

namespace Heimdall

structure RuntimeEnvironment where
  name : String
  value : String
deriving DecidableEq

structure RuntimeSecret where
  name : String
  reference : String
  fingerprint : String
  containerPath : String
deriving DecidableEq

structure RuntimeDatabase where
  host : String
  port : ℕ
  databaseName : String
  username : String
  schemaName : String
  credentialReference : String
  credentialFingerprint : String
  containerPath : String := "/run/secrets/heimdall/project-database-password"
deriving DecidableEq

/-- The paths of the build are given by their parts. -/
structure RuntimeService where
  name : String
  buildContext : List String
  dockerfile : List String
  internalPort : ℕ
  healthPath : String
  environment : List RuntimeEnvironment
  secrets : List RuntimeSecret
  projectDatabaseAccess : Bool
  /-- "invalid service name" -/
  name_valid : isServiceName name = true
deriving DecidableEq

structure RuntimeRoute where
  path : String
  service : String
  /-- "invalid route path" -/
  path_valid : isHttpPath path = true
deriving DecidableEq

structure RuntimeDeployment where
  services : List RuntimeService
  routes : List RuntimeRoute
  database : Option RuntimeDatabase
  /-- "service names must be unique" -/
  names_nodup : (services.map RuntimeService.name).Nodup
  /-- "route references an unknown service" -/
  routes_known : ∀ route ∈ routes, route.service ∈ services.map RuntimeService.name
  /-- "routes must be unique" -/
  paths_nodup : (routes.map RuntimeRoute.path).Nodup
  /-- "and include root" -/
  root_mem : "/" ∈ routes.map RuntimeRoute.path
deriving DecidableEq

end Heimdall
