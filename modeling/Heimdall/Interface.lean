import Heimdall.Deployments.Models
import Heimdall.Effect.Locals
import Heimdall.Errors

/-!
# The interface of the program to its world

Everything a worker process does to the outside is an operation: files, child processes, HTTP
requests, the clock, and the calls of the repositories. `Op` lists them with their arguments, `Ans`
gives the type of the answer, and `Py` is the type of programs over them. What an operation does is
not said here; each group of results states the world it is about.

## Commands

A child process is started by `launch`, looked at by `poll` and ended by `terminate`. A command is a
constructor of `Command` with the names it is about; `Command.arguments` is the argument vector.

## Files

The files of the edge root and of the gateway directories are named by `Path`. Temporary files of
the edge root have numbers in place of random names.
-/

namespace Heimdall

/-- The files of the edge configuration root. -/
inductive EdgeFile where
  /-- `public-routes.conf`. -/
  | publicRoutes
  /-- `.routing-transaction.json`. -/
  | transactionJournal
  /-- A file made by `mkstemp`. -/
  | temporary (n : ℕ)
deriving DecidableEq

/-- The files of a project's gateway directory. -/
inductive GatewayFile where
  /-- `current.conf`. -/
  | current
  /-- `last-good.config`. -/
  | lastGood
  /-- `candidate-{deployment}.config`. -/
  | candidate (deployment : Uuid)
deriving DecidableEq

inductive Path where
  | edge (file : EdgeFile)
  | gateway (project : Uuid) (file : GatewayFile)
  /-- `.{name}.tmp` next to a gateway file. -/
  | gatewayTemporary (project : Uuid) (file : GatewayFile)
deriving DecidableEq

inductive Directory where
  | edgeRoot
  | gatewayRoot
  | gatewayDirectory (project : Uuid)
  | workspaceRoot
deriving DecidableEq

inductive FileOp where
  | exists (path : Path)
  | readText (path : Path)
  /-- Create a temporary file in the edge root. -/
  | mkstemp
  | writeText (path : Path) (text : String)
  | chmod (path : Path)
  | fsync (path : Path)
  | replace (source target : Path)
  /-- `unlink(missing_ok=True)`. -/
  | unlink (path : Path)
  | mkdir (directory : Directory)
  /-- Whether a path is a directory and no symbolic link. -/
  | isDirectory (directory : Directory)
  | chmodDirectory (directory : Directory)
  | fsyncDirectory (directory : Directory)
  /-- Open the lock file of the edge root. -/
  | openLock
  | chmodLock
  | flockExclusive
  | flockUnlock
  /-- Close the lock file, which gives up the lock. -/
  | closeLock
deriving DecidableEq

abbrev FileOp.Ans : FileOp → Type
  | .exists _ | .isDirectory _ => Bool
  | .readText _ => String
  | .mkstemp => ℕ
  | _ => Unit

/-! ## Commands -/

/-- The `docker` commands of the workers. -/
inductive Command where
  | inspectLabels (container : String)
  | inspectGateway (container : String)
  | inspectEdge (container : String)
  | inspectNetworks (container : String)
  | inspectRunning (container : String)
  | inspectLogTarget (container : String)
  | inspectExit (container : String)
  | networkInspectLabels (network : String)
  | imageInspectLabels (image : String)
  | port (container : String) (containerPort : ℕ)
  | logs (container : String) (tail : ℕ)
  | build (project deployment : Uuid) (dockerfile image context : String)
  | networkCreate (project deployment : Uuid) (network : String)
  | create (container network : String) (options : List String) (image : String)
  | start (container : String)
  | updateRestart (container : String)
  | remove (force : Bool) (container : String)
  | networkRemove (network : String)
  | imageRemove (image : String)
  | runGateway (container network published : String) (project : Uuid) (directory image : String)
  | runGatewayTest (network : String) (candidate : Path) (image : String)
  | runEdgeTest (network : String) (main management candidate : Path) (image : String)
  | readContainerFile (container file : String)
  | reload (container : String)
  | networkConnect (network container : String)
  | networkConnectAlias (networkAlias network container : String)
  | networkDisconnect (force : Bool) (network container : String)
deriving DecidableEq

/-- The arguments after `docker`. -/
def Command.arguments (pathText : Path → String) : Command → List String
  | .inspectLabels c => ["inspect", "--format", "{{json .Config.Labels}}", c]
  | .inspectGateway c =>
    ["inspect", "--format",
      "\x7b\"labels\":{{json .Config.Labels}},\"running\":{{json .State.Running}}\x7d", c]
  | .inspectEdge c =>
    ["inspect", "--format",
      "\x7b\"labels\":{{json .Config.Labels}}," ++ "\"image\":{{json .Config.Image}}," ++
        "\"running\":{{json .State.Running}}," ++
        "\"networks\":{{json .NetworkSettings.Networks}}\x7d", c]
  | .inspectNetworks c => ["inspect", "--format", "{{json .NetworkSettings.Networks}}", c]
  | .inspectRunning c => ["inspect", "--format", "{{json .State.Running}}", c]
  | .inspectLogTarget c => ["inspect", "--format", "{{json .Id}} {{json .Config.Labels}}", c]
  | .inspectExit c =>
    ["inspect", "--format", "{{json .State.Status}} {{json .State.ExitCode}}", c]
  | .networkInspectLabels n => ["network", "inspect", "--format", "{{json .Labels}}", n]
  | .imageInspectLabels i => ["image", "inspect", "--format", "{{json .Config.Labels}}", i]
  | .port c n => ["port", c, toString n ++ "/tcp"]
  | .logs c tail => ["logs", "--tail", toString tail, "--timestamps", c]
  | .build p d dockerfile image context =>
    ["build", "--label", "heimdall.managed=true", "--label", "heimdall.project-id=" ++ p.str,
      "--label", "heimdall.deployment-id=" ++ d.str, "--label", "heimdall.kind=image",
      "--file", dockerfile, "--tag", image, context]
  | .networkCreate p d n =>
    ["network", "create", "--label", "heimdall.managed=true", "--label",
      "heimdall.project-id=" ++ p.str, "--label", "heimdall.deployment-id=" ++ d.str, "--label",
      "heimdall.kind=network", n]
  | .create c n options image => ["create", "--name", c, "--network", n] ++ options ++ [image]
  | .start c => ["start", c]
  | .updateRestart c => ["update", "--restart", "unless-stopped", c]
  | .remove force c => "rm" :: ((if force then ["--force"] else []) ++ [c])
  | .networkRemove n => ["network", "rm", n]
  | .imageRemove i => ["image", "rm", "--force", i]
  | .runGateway c n published p directory image =>
    ["run", "--detach", "--name", c, "--network", n, "--publish", published, "--restart",
      "unless-stopped", "--label", "heimdall.managed=true", "--label",
      "heimdall.project-id=" ++ p.str, "--label", "heimdall.kind=gateway", "--mount",
      "type=bind,src=" ++ directory ++ ",dst=/etc/nginx/conf.d,readonly", image]
  | .runGatewayTest n candidate image =>
    ["run", "--rm", "--network", n, "--mount",
      "type=bind,src=" ++ pathText candidate ++ ",dst=/etc/nginx/conf.d/default.conf,readonly",
      image, "nginx", "-t"]
  | .runEdgeTest n main management candidate image =>
    ["run", "--rm", "--network", n,
      "--mount", "type=bind,src=" ++ pathText main ++ ",dst=/etc/nginx/nginx.conf,readonly",
      "--mount", "type=bind,src=" ++ pathText management ++
        ",dst=/tmp/heimdall-edge-conf/management.conf,readonly",
      "--mount", "type=bind,src=" ++ pathText candidate ++
        ",dst=/etc/nginx/routes/public-routes.conf,readonly",
      image, "nginx", "-t"]
  | .readContainerFile c file => ["exec", c, "cat", file]
  | .reload c => ["exec", c, "nginx", "-s", "reload"]
  | .networkConnect n c => ["network", "connect", n, c]
  | .networkConnectAlias a n c => ["network", "connect", "--alias", a, n, c]
  | .networkDisconnect force n c =>
    ["network", "disconnect"] ++ (if force then ["--force"] else []) ++ [n, c]

/-- What a look at a running child process finds. -/
inductive Poll where
  /-- It has not ended within the heartbeat interval. -/
  | running
  /-- The time for the command is over. -/
  | timedOut
  /-- It has ended. -/
  | exited (result : CommandResult)
deriving DecidableEq

/-! ## HTTP -/

/-- The parts of a response that some probe looks at. -/
structure HttpResponse where
  status : ℕ
  /-- The client library raised the response as an error (`HTTPError`). -/
  raised : Bool := false
  /-- `X-Heimdall-Deployment-Id`. -/
  marker : Option String := none
  /-- `X-Heimdall-Management`. -/
  management : Option String := none
deriving DecidableEq

inductive HttpTarget where
  /-- The edge, with a `Host` header. -/
  | edge (hostname : String)
  | url (url : String)
deriving DecidableEq

/-! ## Repositories -/

inductive RouteOp where
  | listApplied
  | claimNext (workerId : String) (leaseDuration : Time)
  | renew (claim : PublicRouteJobClaim) (leaseDuration : Time)
  | complete (claim : PublicRouteJobClaim)
  | deferNotReady (claim : PublicRouteJobClaim) (availableAt : Time) (code : String)
  | retry (claim : PublicRouteJobClaim) (availableAt : Time) (code : String)
  | fail (claim : PublicRouteJobClaim) (code : String) (uncertain : Bool)

abbrev RouteOp.Ans : RouteOp → Type
  | .listApplied => List PublicRoute
  | .claimNext _ _ => Option PublicRouteJobClaim
  | .renew _ _ => Time
  | _ => PublicRoute

inductive DeploymentOp where
  | listUncertainBefore (cutoff : Time)
  | get (deployment : Uuid)
  | claimNext (workerId : String) (leaseDuration : Time)
  | renew (claim : DeploymentJobClaim) (leaseDuration : Time)
  | advance (claim : DeploymentJobClaim) (status : DeploymentStatus) (code message : String)
  | succeed (claim : DeploymentJobClaim)
  | fail (claim : DeploymentJobClaim) (stage code : String)
  | retry (claim : DeploymentJobClaim) (availableAt : Time) (stage code : String)
  | reconcileSucceeded (deployment : Uuid)
  | recordDiagnostics (claim : DeploymentJobClaim) (stage code : String)
    (artifacts : List DiagnosticArtifactDraft) (retention : Time)
  | recordReconciliationDiagnostics (deployment : Uuid) (stage code : String)
    (artifacts : List DiagnosticArtifactDraft) (retention : Time)
  | purgeExpiredDiagnostics (limit : ℕ)

abbrev DeploymentOp.Ans : DeploymentOp → Type
  | .listUncertainBefore _ => List Deployment
  | .claimNext _ _ => Option DeploymentJobClaim
  | .renew _ _ => Time
  | .recordDiagnostics .. | .recordReconciliationDiagnostics .. | .purgeExpiredDiagnostics _ => Unit
  | _ => Deployment

inductive RuntimeOp where
  | get (project : Uuid)
  | ensureGateway (project : Uuid) (gateway : String) (previewPort : ℕ)
  | activate (project deployment : Uuid) (network : String) (containers images : List String)

abbrev RuntimeOp.Ans : RuntimeOp → Type
  | .ensureGateway .. => ProjectRuntime
  | _ => Option ProjectRuntime

inductive ReconciliationOp where
  | scheduleAutomatic (candidates : List (Uuid × Time))
  | claimNext (workerId : String) (leaseDuration : Time)
  | renew (claim : RuntimeReconciliationClaim) (leaseDuration : Time)
  | resolve (claim : RuntimeReconciliationClaim) (result : ReconciliationResult) (code : String)
  | block (claim : RuntimeReconciliationClaim) (code : String)
  | retry (claim : RuntimeReconciliationClaim) (availableAt : Time) (code : String)

abbrev ReconciliationOp.Ans : ReconciliationOp → Type
  | .claimNext _ _ => Option RuntimeReconciliationClaim
  | .renew _ _ => Time
  | _ => Unit

/-! ## Sources and secrets -/

/-- A resolved path below a deployment's workspace. -/
structure ResolvedPath where
  text : String
  /-- It lies below the directory it was resolved in. -/
  inside : Bool
  /-- It is of the kind that was asked for. -/
  present : Bool

/-- The file a secret reference resolves to. -/
structure SecretFile where
  text : String
  isAbsolute : Bool
  isFile : Bool

inductive SourceOp where
  /-- The repository URL of a project. -/
  | repositoryUrl (project : Uuid)
  /-- The workspace is a proper child of the workspace root. -/
  | workspaceValid (deployment : Uuid)
  | workspaceIsSymlink (deployment : Uuid)
  | workspaceExists (deployment : Uuid)
  | workspaceUnlink (deployment : Uuid)
  | workspaceRemove (deployment : Uuid)
  | workspaceMkdir (deployment : Uuid)
  | checkoutExact (url sha : String) (deployment : Uuid)
  | resolveWorkspace (deployment : Uuid)
  | resolveContext (deployment : Uuid) (buildContext : String)
  | resolveDockerfile (deployment : Uuid) (buildContext dockerfile : String)
  | secretResolve (reference fingerprint : String)
  | secretRead (reference fingerprint : String)

abbrev SourceOp.Ans : SourceOp → Type
  | .repositoryUrl _ | .secretRead _ _ => String
  | .workspaceValid _ | .workspaceIsSymlink _ | .workspaceExists _ => Bool
  | .resolveContext _ _ | .resolveDockerfile _ _ _ => ResolvedPath
  | .secretResolve _ _ => SecretFile
  | _ => Unit

/-! ## The program's own memory and its boundaries -/

/-- The functions a caller hands to `DockerEdgeConfigManager.apply`. -/
inductive EdgeCallback where
  | heartbeat
  | fence
  | finalize
deriving DecidableEq

inductive Op where
  | now
  /-- Whether the deadline of a polling loop is still ahead. -/
  | timeLeft
  | launch (command : Command)
  | poll (command : Command)
  | terminate (command : Command)
  | http (target : HttpTarget)
  | file (op : FileOp)
  | routes (op : RouteOp)
  | deployments (op : DeploymentOp)
  | runtimes (op : RuntimeOp)
  | reconciliations (op : ReconciliationOp)
  | source (op : SourceOp)
  /-- The callback that wakes the routing worker. -/
  | onRuntimeReady (project : Uuid)
  /-- A callback of the edge configuration, when it is looked at apart from its callers. -/
  | callback (callback : EdgeCallback)
  /-- Read `_reconciliation_required` of the routing worker. -/
  | reconciliationRequired
  /-- Write `_reconciliation_required` of the routing worker. -/
  | setReconciliationRequired (value : Bool)
  /-- The point where a worker enters `apply`; it does nothing. -/
  | applyEntered
  /-- The point where a worker leaves `apply` with an outcome; it does nothing. -/
  | applyLeft (outcome : Except Exc Unit)

abbrev Ans : Op → Type
  | .now => Time
  | .timeLeft => Bool
  | .poll _ => Poll
  | .terminate _ => CommandResult
  | .http _ => HttpResponse
  | .file op => op.Ans
  | .routes op => op.Ans
  | .deployments op => op.Ans
  | .runtimes op => op.Ans
  | .reconciliations op => op.Ans
  | .source op => op.Ans
  | .reconciliationRequired => Bool
  | _ => Unit

/-- A program of the repository. -/
abbrev Py (α : Type) : Type := Effect.Prog Op Ans Exc α

namespace Py

open Effect

def raise {α : Type} (x : Exc) : Py α := Prog.raise x

/-- A handler that catches some exceptions and lets the others through. -/
def except {α : Type} (p : Py α) (handler : Exc → Option (Py α)) : Py α :=
  p.tryCatch fun x ↦ (handler x).getD (raise x)

def now : Py Time := Prog.op Op.now
def timeLeft : Py Bool := Prog.op Op.timeLeft
def launch (c : Command) : Py Unit := Prog.op (Op.launch c)
def poll (c : Command) : Py Poll := Prog.op (Op.poll c)
def terminate (c : Command) : Py CommandResult := Prog.op (Op.terminate c)
def http (t : HttpTarget) : Py HttpResponse := Prog.op (Op.http t)
def file (o : FileOp) : Py o.Ans := Prog.op (Op.file o)
def routes (o : RouteOp) : Py o.Ans := Prog.op (Op.routes o)
def deployments (o : DeploymentOp) : Py o.Ans := Prog.op (Op.deployments o)
def runtimes (o : RuntimeOp) : Py o.Ans := Prog.op (Op.runtimes o)
def reconciliations (o : ReconciliationOp) : Py o.Ans := Prog.op (Op.reconciliations o)
def source (o : SourceOp) : Py o.Ans := Prog.op (Op.source o)

end Py

end Heimdall
