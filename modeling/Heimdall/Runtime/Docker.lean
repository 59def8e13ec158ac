import Heimdall.Runtime.Host
import Heimdall.Runtime.Models
import Heimdall.Text.Lines

/-!
# The Docker objects of a generation

`DockerRuntime`: the containers, the network and the images of a deployment have names that are made
of the identifiers of its project and its own, and labels that say whose they are. Before an object
is removed its labels are looked at. The removal of a generation is also offered with a report
(`cleanupCandidateVerified`): every object is classified before anything is removed and once more
afterwards.
-/

namespace Heimdall

open Effect

/-! ## Names -/

def networkName (d : Deployment) : String :=
  "hm-p" ++ d.projectId.hex12 ++ "-g" ++ d.id.hex12

def containerName (d : Deployment) (service : RuntimeService) : String :=
  "hm-p" ++ d.projectId.hex12 ++ "-" ++ service.name ++ "-g" ++ d.id.hex12

def imageName (d : Deployment) (service : RuntimeService) : String :=
  "heimdall/" ++ d.projectId.hex ++ ":g" ++ d.id.hex12 ++ "-" ++ service.name

/-- The objects a generation can own. -/
def generationResources (d : Deployment) (runtime : RuntimeDeployment) : List Resource :=
  (runtime.services.map fun service ↦ ⟨.container, containerName d service⟩)
    ++ ⟨.network, networkName d⟩
    :: (runtime.services.map fun service ↦ ⟨.image, imageName d service⟩)

theorem containerName_injective (d : Deployment) {s s' : RuntimeService}
    (h : containerName d s = containerName d s') : s.name = s'.name := by
  simpa [containerName] using h

theorem imageName_injective (d : Deployment) {s s' : RuntimeService}
    (h : imageName d s = imageName d s') : s.name = s'.name := by
  simpa [imageName] using h

theorem generationResources_nodup (d : Deployment) (runtime : RuntimeDeployment) :
    (generationResources d runtime).Nodup := by
  have hnodup : ∀ (kind : ResourceKind) (f : RuntimeService → String),
      (∀ s s', f s = f s' → s.name = s'.name) →
      (runtime.services.map fun s ↦ (⟨kind, f s⟩ : Resource)).Nodup := fun kind f hf ↦
    List.pairwise_map.mpr <| (List.pairwise_map.mp runtime.names_nodup).imp fun hne heq ↦
      hne (hf _ _ (Resource.mk.inj heq).2)
  refine List.nodup_append.mpr ⟨hnodup .container _ fun _ _ ↦ containerName_injective d,
    List.nodup_cons.mpr ⟨by simp, hnodup .image _ fun _ _ ↦ imageName_injective d⟩, ?_⟩
  simp only [List.mem_map, List.mem_cons]
  rintro _ ⟨s, -, rfl⟩ _ (rfl | ⟨s', -, rfl⟩) <;> exact fun heq ↦ nomatch (Resource.mk.inj heq).1

/-! ## Labels -/

/-- `labels.get(key) == value` of what may not be a dictionary. -/
def hasLabel (labels : Json.Value) (key value : String) : Bool :=
  match labels.get? key with
  | some (.str s) => s == value
  | _ => false

inductive ResourceState where
  | exact
  | absent
  | conflict
  | unknown
deriving DecidableEq

/-- The labels of an object of a generation. -/
def hasGenerationLabels (labels : Json.Value) (project deployment : Uuid) : Bool :=
  hasLabel labels "heimdall.managed" "true"
    && hasLabel labels "heimdall.project-id" project.str
    && hasLabel labels "heimdall.deployment-id" deployment.str

/-- What `_is_managed` makes of an inspection. -/
def managedBy (deployment : Uuid) (result : CommandResult) : Bool :=
  result.returncode == 0 && (Json.loads result.stdout).any fun labels ↦
    hasLabel labels "heimdall.managed" "true"
      && hasLabel labels "heimdall.deployment-id" deployment.str

/-- What `_resource_state` makes of an inspection. -/
def resourceStateOf (d : Deployment) (result : CommandResult) : ResourceState :=
  if result.returncode = -1 then .unknown
  else if result.returncode ≠ 0 then .absent
  else if (Json.loads result.stdout).any (hasGenerationLabels · d.projectId d.id) then .exact
  else .conflict

/-- `_is_managed` -/
def isManaged (x : Resource) (deployment : Uuid) (beats : Bool := false) : Host Bool := do
  let result ← Host.runIgnored x.inspect beats
  pure (managedBy deployment result)

/-- `_resource_state` -/
def resourceState (d : Deployment) (x : Resource) : Host ResourceState := do
  let result ← Host.runIgnored x.inspect true
  pure (resourceStateOf d result)

/-! ## Removal -/

def removeManaged (deployment : Uuid) (x : Resource) : Host Unit := do
  if ← isManaged x deployment then
    let _ ← Host.runIgnored x.remove

def cleanupCandidate (d : Deployment) (runtime : RuntimeDeployment) : Host Unit :=
  forM (generationResources d runtime) (removeManaged d.id)

def retireGeneration (network : String) (containers images : List String) (deployment : Uuid) :
    Host Unit := do
  forM containers fun name ↦ removeManaged deployment ⟨.container, name⟩
  removeManaged deployment ⟨.network, network⟩
  forM images fun name ↦ removeManaged deployment ⟨.image, name⟩

/-- A failure of a cleanup that is reported. -/
def cleanupFailure (code : String) (retryable : Bool := false) : Exc :=
  .runtimeFailure
    { stage := "RECONCILIATION", code := code, retryable := retryable, cleanupCandidate := false }

def observeResources (d : Deployment) (resources : List Resource) :
    Host (List (Resource × ResourceState)) :=
  resources.mapM fun x ↦ do
    let state ← resourceState d x
    pure (x, state)

/-- What both looks at the objects of a generation reject. -/
def requireObserved (states : List (Resource × ResourceState)) : Host Unit := do
  if states.any (·.2 == .unknown) then
    Host.raise (cleanupFailure "CANDIDATE_RESOURCE_OBSERVATION_FAILED" true)
  if states.any (·.2 == .conflict) then
    Host.raise (cleanupFailure "CANDIDATE_RESOURCE_NAME_CONFLICT")

def cleanupCandidateVerified (d : Deployment) (runtime : RuntimeDeployment) : Host Unit := do
  let resources := generationResources d runtime
  let before ← observeResources d resources
  requireObserved before
  forM resources fun x ↦ do
    if before.lookup x = some .exact then
      let _ ← Host.runIgnored x.remove true
  let after ← observeResources d resources
  requireObserved after
  if after.any (·.2 == .exact) then
    Host.raise (cleanupFailure "CANDIDATE_CLEANUP_INCOMPLETE" true)

/-! ## Candidates -/

structure RunningService where
  name : String
  containerName : String
  imageName : String
  healthPort : ℕ
deriving DecidableEq

structure CandidateGeneration where
  networkName : String
  services : List RunningService
deriving DecidableEq

/-- White space, as `str.strip` has it. -/
def isWhiteSpace (c : Char) : Bool :=
  (9 ≤ c.toNat && c.toNat ≤ 13) || (28 ≤ c.toNat && c.toNat ≤ 32)
    || (0x2000 ≤ c.toNat && c.toNat ≤ 0x200a)
    || [0x85, 0xa0, 0x1680, 0x2028, 0x2029, 0x202f, 0x205f, 0x3000].contains c.toNat

/-- What comes after the last colon of a line without the white space around it. -/
def afterColon (line : List Char) : Option String :=
  let value := Uuid.strip isWhiteSpace line
  if ':' ∈ value then some (String.ofList (value.rtakeWhile (· ≠ ':'))) else none

structure DockerRuntime where
  probeHost : String
  /-- How many requests fit into the timeout of a health probe. -/
  probes : ℕ
  /-- `isdigit` and `int` of a text: the number, `none` for a text that is not all digits, or what
  `int` raises for digits that are not decimal. -/
  readDigits : String → Except Exc (Option ℕ)

namespace DockerRuntime

variable (docker : DockerRuntime)

/-- The first port among lines that end with a colon and a number. -/
def portOf : List (List Char) → Except Exc (Option ℕ)
  | [] => .ok none
  | line :: lines =>
    match afterColon line with
    | none => portOf lines
    | some raw => do
      match ← docker.readDigits raw with
      | some port => if 1 ≤ port ∧ port ≤ 65535 then .ok (some port) else portOf lines
      | none => portOf lines

/-- `_published_port`, with the failure that is raised when there is no port. -/
def publishedPort (failure : RuntimeFailure) (output : String) : Except Exc ℕ := do
  match ← docker.portOf (Text.splitlines output.toList) with
  | some port => .ok port
  | none => .error (.runtimeFailure failure)

/-- `HttpHealthProbe.wait_until_healthy` -/
def waitUntilHealthy (url : String) : ℕ → Host Unit
  | 0 => Host.raise (.runtimeFailure { stage := "HEALTH_CHECK", code := "SERVICE_HEALTH_TIMEOUT" })
  | n + 1 => do
    if ← Host.timeLeft then
      let healthy ← (do
        let response ← Host.http (.url url)
        pure (!response.raised && 200 ≤ response.status && response.status < 400)).except fun
          | .osError => some (pure false)
          | _ => none
      if healthy then pure ()
      else
        Host.heartbeat
        waitUntilHealthy url n
    else Host.raise (.runtimeFailure { stage := "HEALTH_CHECK", code := "SERVICE_HEALTH_TIMEOUT" })

/-- The services of a deployment with those of a candidate, which have to be as many. -/
def verifyServices : List RuntimeService → List RunningService → Host Unit
  | service :: services, item :: items => do
    waitUntilHealthy ("http://" ++ docker.probeHost ++ ":" ++ toString item.healthPort
      ++ service.healthPath) docker.probes
    verifyServices services items
  | [], [] => pure ()
  | _, _ => Host.raise .value

def verifyCandidate (runtime : RuntimeDeployment) (candidate : CandidateGeneration) : Host Unit :=
  docker.verifyServices runtime.services candidate.services

/-- A service of a candidate whose container runs. -/
def observeService (d : Deployment) (service : RuntimeService) : Host (Option RunningService) := do
  let container := containerName d service
  let image := imageName d service
  if !(← isManaged ⟨.container, container⟩ d.id true) then return none
  if !(← isManaged ⟨.image, image⟩ d.id true) then return none
  let running ← Host.runIgnored (.inspectRunning container) true
  if running.returncode ≠ 0 then return none
  match Json.loads running.stdout with
  | some (.bool true) =>
    let published ← Host.runIgnored (.port container service.internalPort) true
    if published.returncode ≠ 0 then return none
    match docker.publishedPort { stage := "START", code := "HEALTH_PORT_UNAVAILABLE" }
        published.stdout with
    | .ok port => return some ⟨service.name, container, image, port⟩
    | .error (.runtimeFailure _) => return none
    | .error x => Host.raise x
  | _ => return none

def observeServices (d : Deployment) : List RuntimeService → Host (Option (List RunningService))
  | [] => pure (some [])
  | service :: services => do
    match ← docker.observeService d service with
    | none => pure none
    | some item => do
      let items ← observeServices d services
      pure (items.map (item :: ·))

def observeCandidate (d : Deployment) (runtime : RuntimeDeployment) :
    Host (Option CandidateGeneration) := do
  if ← isManaged ⟨.network, networkName d⟩ d.id true then
    let services ← docker.observeServices d runtime.services
    pure (services.map (⟨networkName d, ·⟩))
  else pure none

def promoteCandidate (candidate : CandidateGeneration) : Host Unit :=
  forM candidate.services fun service ↦ do
    let _ ← Host.runIgnored (.updateRestart service.containerName)

end DockerRuntime

/-! ## A generation with one service -/

def sampleCandidate : Deployment where
  id := .ofNat 2
  projectId := .ofNat 1
  sourceType := .mainHead
  requestedCommitSha := none
  resolvedCommitSha := "0123456789012345678901234567890123456789"
  configVersion := 1
  configSnapshot := .null
  status := .starting
  createdAt := 0
  updatedAt := 0

theorem sampleName_valid : isServiceName "api" = true := by decide

theorem samplePath_valid : isHttpPath "/" = true := by decide

def sampleServices : RuntimeDeployment where
  services := [{
    name := "api", buildContext := [], dockerfile := ["Dockerfile"], internalPort := 8000,
    healthPath := "/health", environment := [], secrets := [], projectDatabaseAccess := false
    name_valid := sampleName_valid }]
  routes := [⟨"/", "api", samplePath_valid⟩]
  database := none
  names_nodup := by decide
  routes_known := by decide
  paths_nodup := by decide
  root_mem := by decide

end Heimdall
