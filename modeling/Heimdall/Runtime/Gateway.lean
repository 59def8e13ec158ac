import Heimdall.Effect.Locals
import Heimdall.Runtime.Docker

/-!
# The gateway of a project

Each project has one gateway container. Its configuration names the generation it serves, and so does
a header of its responses. `NginxGatewayActivator.activate` turns the gateway to a candidate and
turns it back when that fails; `recover` finds out after a crash what the gateway serves;
`rollback_candidate` withdraws a candidate.

The files of a gateway are `current.conf`, which it has loaded or will load, and `last-good.config`.
-/

namespace Heimdall

open Effect

/-! ## Configuration -/

/-- `project_gateway_name` and `project_gateway_alias` -/
def gatewayName (project : Uuid) : String := "hm-p" ++ project.hex12 ++ "-gateway"

/-- `_location` -/
def nginxLocation (location upstream : String) (port : ℕ) : String :=
  "\n".intercalate
    ["    location " ++ location ++ " \x7b",
      "        proxy_pass http://" ++ upstream ++ ":" ++ toString port ++ ";",
      "        proxy_set_header Host $host;",
      "        proxy_set_header X-Forwarded-For $proxy_add_x_forwarded_for;",
      "        proxy_set_header X-Forwarded-Proto $scheme;",
      "    \x7d"]

/-- The locations of one route; `none` when its service is not there. -/
def routeLocations (d : Deployment) (runtime : RuntimeDeployment) (route : RuntimeRoute) :
    Option (List String) := do
  let service ← runtime.services.find? (·.name == route.service)
  let upstream := service.name ++ "-g-" ++ d.id.hex12
  if route.path = "/" then some [nginxLocation "/" upstream service.internalPort]
  else some [nginxLocation ("= " ++ route.path) upstream service.internalPort,
    nginxLocation ("^~ " ++ route.path ++ "/") upstream service.internalPort]

/-- What marks the configuration of a generation. -/
def deploymentMarker (deployment : Uuid) : String := "# deployment: " ++ deployment.str

/-- `render_nginx_config` -/
def renderNginxConfig (d : Deployment) (runtime : RuntimeDeployment) : Option String := do
  let locations ← (runtime.routes.insertionSort fun a b ↦ b.path.length ≤ a.path.length).mapM
    (routeLocations d runtime)
  some <| "\n".intercalate <|
    [deploymentMarker d.id, "server \x7b", "    listen 8080;", "    server_name _;",
      "    proxy_hide_header X-Heimdall-Deployment-Id;",
      "    add_header X-Heimdall-Deployment-Id \"" ++ d.id.str ++ "\" always;"]
    ++ locations.flatten ++ ["\x7d", ""]

def defaultNginxConfig : String :=
  "server \x7b listen 8080; add_header X-Heimdall-Deployment-Id \"none\" always; "
    ++ "location / \x7b return 503; \x7d \x7d\n"

def carriesMarker (text : String) (deployment : Uuid) : Bool :=
  (deploymentMarker deployment).toList <:+: text.toList

/-! ## Observations -/

structure GatewayObservation where
  reachable : Bool
  deploymentId : Option Uuid
deriving DecidableEq

/-- What a response says about the generation that is served. -/
def observationOf (response : HttpResponse) : GatewayObservation where
  reachable := true
  deploymentId := response.marker.bind fun marker ↦
    if marker = "none" then none else Uuid.parse marker

/-- `HttpRouteProbe.observe` -/
def observeRoute (url : String) : Host GatewayObservation := do
  Host.heartbeat
  (do
    let response ← Host.http (.url url)
    pure (observationOf response)).except fun
      | .osError => some (pure ⟨false, none⟩)
      | _ => none

def routeProbeFailed : Exc :=
  .runtimeFailure { stage := "ACTIVATION", code := "GATEWAY_ROUTE_PROBE_FAILED" }

/-- `HttpRouteProbe.probe` -/
def probeRoute (url : String) : ℕ → Host Unit
  | 0 => Host.raise routeProbeFailed
  | n + 1 => do
    if ← Host.timeLeft then
      Host.heartbeat
      let served ← (do
        let response ← Host.http (.url url)
        pure (decide (response.status < 500))).except fun
          | .osError => some (pure false)
          | _ => none
      if served then pure () else probeRoute url n
    else Host.raise routeProbeFailed

/-! ## Labels -/

/-- `_has_managed_gateway_labels` -/
def hasGatewayLabels (labels : Json.Value) (project : Uuid) : Bool :=
  hasLabel labels "heimdall.managed" "true"
    && hasLabel labels "heimdall.project-id" project.str
    && hasLabel labels "heimdall.kind" "gateway"

/-- `_is_managed_gateway` -/
def isManagedGateway (output : String) (project : Uuid) : Bool :=
  (Json.loads output).any (hasGatewayLabels · project)

/-- `_is_managed_generation_network` -/
def isManagedGenerationNetwork (output : String) (d : Deployment) : Bool :=
  (Json.loads output).any (hasGenerationLabels · d.projectId d.id)

def activationFailure (code : String) (retryable : Bool := false) : RuntimeFailure :=
  { stage := "ACTIVATION", code := code, retryable := retryable }

/-- `_managed_gateway_running` -/
def managedGatewayRunning (output : String) (project : Uuid) : Except Exc Bool :=
  match Json.loads output with
  | some (.obj fields) =>
    match fields.lookup "labels", fields.lookup "running" with
    | some labels, some (.bool running) =>
      if hasGatewayLabels labels project then .ok running
      else .error (.runtimeFailure (activationFailure "GATEWAY_NAME_CONFLICT"))
    | _, _ => .error (.runtimeFailure (activationFailure "GATEWAY_NAME_CONFLICT"))
  | _ => .error (.runtimeFailure (activationFailure "GATEWAY_NAME_CONFLICT"))

/-- `_has_network_alias` -/
def hasNetworkAlias (output network networkAlias : String) : Bool :=
  match Json.loads output with
  | some (.obj networks) =>
    match (networks.lookup network).bind (Json.Value.get? "Aliases") with
    | some (.arr aliases) => aliases.any fun | .str s => s == networkAlias | _ => false
    | _ => false
  | _ => false

/-! ## The edge network -/

def raiseActivation {α : Type} (code : String) (retryable : Bool := false) : Host α :=
  Host.raise (.runtimeFailure (activationFailure code retryable))

/-- `DockerEdgeNetworkConnector.ensure_gateway_attached` -/
def ensureGatewayAttached (edgeNetwork : String) (project : Uuid) : Host Unit := do
  let network ← Host.runIgnored (.networkInspectLabels edgeNetwork) true
  if network.returncode ≠ 0 then raiseActivation "EDGE_NETWORK_UNAVAILABLE" true
  if !((Json.loads network.stdout).any fun labels ↦ hasLabel labels "heimdall.managed" "true"
      && hasLabel labels "heimdall.kind" "edge-network") then
    raiseActivation "EDGE_NETWORK_NAME_CONFLICT"
  let gateway ← Host.runIgnored (.inspectGateway (gatewayName project)) true
  if gateway.returncode ≠ 0 then raiseActivation "GATEWAY_START_FAILED" true
  if !(← Prog.ofExcept (managedGatewayRunning gateway.stdout project)) then
    raiseActivation "GATEWAY_START_FAILED" true
  let _ ← Host.runIgnored
    (.networkConnectAlias (gatewayName project) edgeNetwork (gatewayName project)) true
  let attached ← Host.runIgnored (.inspectNetworks (gatewayName project)) true
  if attached.returncode ≠ 0
      || !hasNetworkAlias attached.stdout edgeNetwork (gatewayName project) then
    raiseActivation "GATEWAY_EDGE_NETWORK_CONNECT_FAILED" true

/-! ## The activator -/

structure GatewayActivator where
  docker : DockerRuntime
  image : String
  probeHost : String
  /-- How many requests fit into the timeout of a route probe. -/
  probes : ℕ
  /-- The text of the directory of a project's gateway. -/
  directoryText : Uuid → String
  /-- The network a connector attaches gateways to, if there is a connector. -/
  edgeNetwork : Option String

structure GatewayReadiness where
  previewPort : ℕ
  needsNetworkRebase : Bool

/-- The generation that a newly active one on `network` has replaced. -/
def ProjectRuntime.replaced (previous : ProjectRuntime) (network : String) :
    Option (Uuid × String) :=
  match previous.activeDeploymentId, previous.activeNetworkName with
  | some deployment, some old => if old = network then none else some (deployment, old)
  | _, _ => none

namespace GatewayActivator

variable (a : GatewayActivator)

/-- `_run` -/
def run (c : Command) (failure : RuntimeFailure) : Host CommandResult :=
  Host.runOr c "GATEWAY_DOCKER_COMMAND" failure

def atomicWrite (project : Uuid) (file : GatewayFile) (text : String) : Host Unit := do
  Host.file (.writeText (.gatewayTemporary project file) text)
  Host.file (.chmod (.gatewayTemporary project file))
  Host.file (.replace (.gatewayTemporary project file) (.gateway project file))

def ensurePrivateDirectory (project : Uuid) : Host Unit := do
  Host.file (.mkdir (.gatewayDirectory project))
  if ← Host.file (.isDirectory (.gatewayDirectory project)) then
    Host.file (.chmodDirectory (.gatewayDirectory project))
  else raiseActivation "GATEWAY_CONFIG_ROOT_INVALID"

def previewUrl (port : ℕ) (path : String) : String :=
  "http://" ++ a.probeHost ++ ":" ++ toString port ++ path

def publishedPort (output : String) : Except Exc ℕ :=
  a.docker.publishedPort (activationFailure "GATEWAY_PORT_UNAVAILABLE") output

/-- The configuration of a candidate. -/
def render (d : Deployment) (runtime : RuntimeDeployment) : Host String :=
  match renderNginxConfig d runtime with
  | some text => pure text
  | none => Host.raise .other

def isActive (d : Deployment) : Host Bool := do
  let current ← Host.runtimes (.get d.projectId)
  pure (current.any (·.activeDeploymentId == some d.id))

def ensureEdgeNetwork (d : Deployment) : Host Unit :=
  match a.edgeNetwork with
  | some network => ensureGatewayAttached network d.projectId
  | none => pure ()

def reload (project : Uuid) : Host Unit := do
  let _ ← run (.reload (gatewayName project)) (activationFailure "GATEWAY_RELOAD_FAILED" true)

def probeRoutes (runtime : RuntimeDeployment) (port : ℕ) : Host Unit :=
  forM runtime.routes fun route ↦ probeRoute (a.previewUrl port route.path) a.probes

def port (project : Uuid) : Host ℕ := do
  let result ← run (.port (gatewayName project) 8080) (activationFailure "GATEWAY_PORT_UNAVAILABLE")
  Prog.ofExcept (a.publishedPort result.stdout)

def startGateway (d : Deployment) (network : String) (stored : Option ProjectRuntime) :
    Host Unit := do
  let published := match stored with
    | some row => "127.0.0.1:" ++ toString row.previewPort ++ ":8080"
    | none => "127.0.0.1::8080"
  let _ ← run (.runGateway (gatewayName d.projectId) network published d.projectId
    (a.directoryText d.projectId) a.image) (activationFailure "GATEWAY_START_FAILED" true)
  a.ensureEdgeNetwork d

/-- The cases of `_ensure_gateway`; whether the network of the gateway has to be exchanged. -/
def readyGateway (d : Deployment) (network : String) (inspected : CommandResult)
    (stored : Option ProjectRuntime) : Host Bool := do
  if inspected.returncode ≠ 0 then
    a.startGateway d network stored
    pure false
  else if ← Prog.ofExcept (managedGatewayRunning inspected.stdout d.projectId) then
    a.ensureEdgeNetwork d
    pure (stored.any fun row ↦ row.activeNetworkName.any (· != network))
  else
    if stored.any (·.gatewayContainerName != gatewayName d.projectId) then
      raiseActivation "GATEWAY_NAME_CONFLICT"
    let _ ← run (.remove false (gatewayName d.projectId))
      (activationFailure "GATEWAY_START_FAILED" true)
    let restoreNetwork := (stored.bind (·.activeNetworkName)).getD network
    a.startGateway d restoreNetwork stored
    pure (restoreNetwork != network)

def ensureGateway (d : Deployment) (network : String) : Host GatewayReadiness := do
  let inspected ← Host.runIgnored (.inspectGateway (gatewayName d.projectId))
  let stored ← Host.runtimes (.get d.projectId)
  let needsNetworkRebase ← a.readyGateway d network inspected stored
  let previewPort ← a.port d.projectId
  pure ⟨previewPort, needsNetworkRebase⟩

/-- `_remove_managed_gateway`, which is only used with force. -/
def removeManagedGateway (d : Deployment) (missingOk : Bool) : Host Unit := do
  let inspected ← Host.runIgnored (.inspectGateway (gatewayName d.projectId)) true
  if inspected.returncode ≠ 0 then
    if missingOk && inspected.returncode != -1 then pure ()
    else raiseActivation "GATEWAY_START_FAILED" true
  else
    let _ ← Prog.ofExcept (managedGatewayRunning inspected.stdout d.projectId)
    let _ ← run (.remove true (gatewayName d.projectId))
      (activationFailure "GATEWAY_START_FAILED" true)

def recreateGatewayOnNetwork (d : Deployment) (network : String) (stored : ProjectRuntime) :
    Host Unit := do
  removeManagedGateway d false
  a.startGateway d network (some stored)
  let port ← a.port d.projectId
  if port ≠ stored.previewPort then raiseActivation "GATEWAY_PORT_UNAVAILABLE"

def restorePreviousGateway (d : Deployment) (stored : ProjectRuntime) : Host Unit :=
  match stored.activeNetworkName with
  | none => raiseActivation "GATEWAY_START_FAILED" true
  | some network => do
    removeManagedGateway d true
    a.startGateway d network (some stored)

def connectGateway (network : String) (project : Uuid) : Host Unit := do
  let result ← Host.runIgnored (.networkConnect network (gatewayName project))
  if result.returncode ≠ 0 ∧ result.returncode ≠ 1 then
    raiseActivation "GATEWAY_NETWORK_CONNECT_FAILED"
  Host.heartbeat

def testConfig (d : Deployment) (network : String) : Host Unit := do
  let _ ← run (.runGatewayTest network (.gateway d.projectId (.candidate d.id)) a.image)
    (activationFailure "NGINX_CONFIG_INVALID")

def retirePrevious (previous : Option ProjectRuntime) (network : String) (project : Uuid) :
    Host Unit :=
  match previous with
  | none => pure ()
  | some row =>
    match row.replaced network with
    | none => pure ()
    | some (deployment, old) => do
      let _ ← Host.runIgnored (.networkDisconnect false old (gatewayName project))
      retireGeneration old row.activeContainerNames row.activeImageNames deployment

/-! ## Activation -/

/-- The variables the handler of `activate` reads. -/
structure Switch where
  switched : Bool := false
  rebaseStarted : Bool := false

abbrev Switching : Type → Type := Local HostOp HostOp.Ans Exc Switch

/-- The body of the `try` statement of `activate`. -/
def switchOver (d : Deployment) (runtime : RuntimeDeployment) (candidate : CandidateGeneration)
    (readiness : GatewayReadiness) (stored : ProjectRuntime) : Switching Unit := do
  liftM (Host.file (.replace (.gateway d.projectId (.candidate d.id))
    (.gateway d.projectId .current)))
  Local.modify fun l ↦ { l with switched := true }
  liftM (reload d.projectId)
  liftM (a.probeRoutes runtime stored.previewPort)
  if readiness.needsNetworkRebase then
    Local.modify fun l ↦ { l with rebaseStarted := true }
    liftM (a.recreateGatewayOnNetwork d candidate.networkName stored)
    liftM (a.probeRoutes runtime stored.previewPort)
  let previous ← liftM (Host.runtimes (.activate d.projectId d.id candidate.networkName
    (candidate.services.map (·.containerName)) (candidate.services.map (·.imageName))))
  let config ← liftM (Host.file (.readText (.gateway d.projectId .current)))
  liftM (atomicWrite d.projectId .lastGood config)
  liftM (DockerRuntime.promoteCandidate candidate)
  liftM (retirePrevious previous candidate.networkName d.projectId)

/-- Turn the gateway back; the failure of doing so, if any. -/
def turnBack (d : Deployment) (stored : ProjectRuntime) (rebaseStarted : Bool) :
    Host (Option Exc) :=
  (do
    if rebaseStarted then a.restorePreviousGateway d stored else reload d.projectId
    pure none).except fun
      | .runtimeFailure failure => some (pure (some (.runtimeFailure failure)))
      | _ => none

/-- The handler of `activate`. -/
def withdraw (d : Deployment) (stored : ProjectRuntime) (previousConfig : String) (error : Exc) :
    Switching Unit := do
  let l ← Local.get
  let restorationError ← if l.switched then do
      liftM (atomicWrite d.projectId .current previousConfig)
      liftM (a.turnBack d stored l.rebaseStarted)
    else pure none
  match restorationError, error with
  | some failure, _ => Local.raise failure
  | none, .runtimeFailure failure => Local.raise (.runtimeFailure failure)
  | none, _ => Local.raise (.runtimeFailure (activationFailure "GATEWAY_ACTIVATION_FAILED"))

def activate (d : Deployment) (runtime : RuntimeDeployment) (candidate : CandidateGeneration) :
    Host Unit := do
  ensurePrivateDirectory d.projectId
  if !(← Host.file (.exists (.gateway d.projectId .current))) then
    atomicWrite d.projectId .current defaultNginxConfig
    atomicWrite d.projectId .lastGood defaultNginxConfig
  let readiness ← a.ensureGateway d candidate.networkName
  let stored ← Host.runtimes (.ensureGateway d.projectId (gatewayName d.projectId)
    readiness.previewPort)
  if stored.activeDeploymentId = some d.id then pure ()
  else
    connectGateway candidate.networkName d.projectId
    let config ← render d runtime
    atomicWrite d.projectId (.candidate d.id) config
    a.testConfig d candidate.networkName
    let previousConfig ← Host.file (.readText (.gateway d.projectId .current))
    (((a.switchOver d runtime candidate readiness stored).tryCatch
      (a.withdraw d stored previousConfig)).tryFinally
        (liftM (Host.file (.unlink (.gateway d.projectId (.candidate d.id)))))).run {}

/-! ## Recovery -/

/-- `_restore_target_file` -/
def restoreTargetFile (d : Deployment) (reloads : Bool) : Host Bool := do
  if !(← Host.file (.exists (.gateway d.projectId .current))) then return true
  let text ← Host.file (.readText (.gateway d.projectId .current))
  if !carriesMarker text d.id then return true
  if !(← Host.file (.exists (.gateway d.projectId .lastGood))) then return false
  let good ← Host.file (.readText (.gateway d.projectId .lastGood))
  atomicWrite d.projectId .current good
  if reloads then
    (do
      reload d.projectId
      pure true).except fun
        | .runtimeFailure _ => some (pure false)
        | _ => none
  else pure true

/-- `_matches_previous_generation` -/
def matchesPreviousGeneration (d : Deployment) (observation : GatewayObservation)
    (stored : ProjectRuntime) : Host Bool :=
  if observation.deploymentId = stored.activeDeploymentId then pure true
  else if observation.deploymentId.isSome then pure false
  else match stored.activeDeploymentId with
    | none => pure true
    | some active => do
      if ← Host.file (.exists (.gateway d.projectId .lastGood)) then
        let good ← Host.file (.readText (.gateway d.projectId .lastGood))
        pure (carriesMarker good active)
      else pure false

/-- `_restore_previous_generation` -/
def restorePreviousGeneration (d : Deployment) (stored : ProjectRuntime) : Host Bool := do
  if !(← restoreTargetFile d true) then return false
  let observation ← observeRoute (a.previewUrl stored.previewPort "/")
  if !observation.reachable then return false
  if !(← matchesPreviousGeneration d observation stored) then return false
  let _ ← Host.runIgnored
    (.networkDisconnect true (networkName d) (gatewayName d.projectId)) true
  return true

/-- What recovery reports when the previous generation has been restored, or could not be. -/
def restored (d : Deployment) (stored : ProjectRuntime) : Host RecoveryDisposition := do
  if ← a.restorePreviousGeneration d stored then pure .safeToRetry else pure .uncertain

/-- The candidate and its routes answer. -/
def candidateServes (runtime : RuntimeDeployment) (candidate : CandidateGeneration)
    (previewPort : ℕ) : Host Bool :=
  (do
    a.docker.verifyCandidate runtime candidate
    a.probeRoutes runtime previewPort
    pure true).except fun
      | .runtimeFailure _ => some (pure false)
      | _ => none

/-- Make the generation that the gateway serves the active one. -/
def adopt (d : Deployment) (runtime : RuntimeDeployment) (candidate : CandidateGeneration) :
    Host Unit := do
  let previous ← Host.runtimes (.activate d.projectId d.id candidate.networkName
    (candidate.services.map (·.containerName)) (candidate.services.map (·.imageName)))
  ensurePrivateDirectory d.projectId
  let config ← render d runtime
  atomicWrite d.projectId .current config
  atomicWrite d.projectId .lastGood config
  DockerRuntime.promoteCandidate candidate
  retirePrevious previous candidate.networkName d.projectId

/-- The row of the gateway with the port it has been seen on; `none` for a conflict. -/
def observedRow (d : Deployment) (output : String) : Host (Option ProjectRuntime) :=
  (do
    let port ← Prog.ofExcept (a.publishedPort output)
    let stored ← Host.runtimes (.ensureGateway d.projectId (gatewayName d.projectId) port)
    pure (some stored) : Host (Option ProjectRuntime)).except fun x ↦ if x.isRuntimeError then some (pure none) else none

/-- `recover` after the gateway has been seen with its labels. -/
def recoverGateway (d : Deployment) (runtime : RuntimeDeployment) : Host RecoveryDisposition := do
  let attached ← (do
    a.ensureEdgeNetwork d
    pure true).except fun
      | .runtimeFailure _ => some (pure false)
      | _ => none
  if !attached then return .uncertain
  let published ← Host.runIgnored (.port (gatewayName d.projectId) 8080) true
  if published.returncode ≠ 0 then return .uncertain
  match ← a.observedRow d published.stdout with
  | none => return .uncertain
  | some stored =>
    let observation ← observeRoute (a.previewUrl stored.previewPort "/")
    if !observation.reachable then return .uncertain
    if observation.deploymentId = some d.id then
      match ← a.docker.observeCandidate d runtime with
      | none => a.restored d stored
      | some candidate =>
        if ← a.candidateServes runtime candidate stored.previewPort then
          adopt d runtime candidate
          return .active
        else a.restored d stored
    else if ← matchesPreviousGeneration d observation stored then a.restored d stored
    else return .uncertain

def recover (d : Deployment) (runtime : RuntimeDeployment) : Host RecoveryDisposition := do
  Host.heartbeat
  if ← isActive d then return .active
  let inspected ← Host.runIgnored (.inspectLabels (gatewayName d.projectId)) true
  if inspected.returncode = -1 then return .uncertain
  if inspected.returncode ≠ 0 then
    if ← restoreTargetFile d false then return .safeToRetry else return .uncertain
  if !isManagedGateway inspected.stdout d.projectId then return .uncertain
  a.recoverGateway d runtime

/-! ## Withdrawing a candidate -/

/-- Put back the last good configuration when the candidate's is the current one. -/
def restoreLastGood (d : Deployment) : Host Bool := do
  if !(← Host.file (.exists (.gateway d.projectId .current))) then return false
  if !(← Host.file (.exists (.gateway d.projectId .lastGood))) then return false
  let text ← Host.file (.readText (.gateway d.projectId .current))
  if !carriesMarker text d.id then return false
  let good ← Host.file (.readText (.gateway d.projectId .lastGood))
  atomicWrite d.projectId .current good
  return true

def rollbackCandidate (d : Deployment) : Host Unit := do
  if ← isActive d then return
  let restored ← restoreLastGood d
  let gateway ← Host.runIgnored (.inspectLabels (gatewayName d.projectId))
  if gateway.returncode ≠ 0 || !isManagedGateway gateway.stdout d.projectId then return
  if restored then
    let _ ← Host.runIgnored (.reload (gatewayName d.projectId))
  let network ← Host.runIgnored (.networkInspectLabels (networkName d))
  if network.returncode ≠ 0 || !isManagedGenerationNetwork network.stdout d then return
  let _ ← Host.runIgnored (.networkDisconnect true (networkName d) (gatewayName d.projectId))

end GatewayActivator

end Heimdall
