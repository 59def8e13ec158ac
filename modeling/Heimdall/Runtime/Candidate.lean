import Heimdall.Effect.Embed
import Heimdall.Runtime.Docker
import Heimdall.Runtime.Snapshot

/-!
# Starting a candidate

`DockerRuntime.start_candidate` removes what an earlier attempt has left behind, builds the images of
the services, creates their network and their containers, starts them, and waits until they are
healthy. Besides commands it reads the workspace and the secrets of the project, and it records the
stage the deployment is in.

A container is created with options (`createOptions`). Two of them are its names in the network: the
name of the service, which the other services use, and the name the gateway uses (`gatewayAlias`).

## What a run has created

A run that returns has created the objects of the generation and no others
(`StartedGeneration.created_iff`), and has given each container its two aliases
(`StartedGeneration.aliased_iff`).
-/

namespace Heimdall

open Effect

/-! ## The interface -/

inductive CandidateOp where
  | host (op : HostOp)
  | source (op : SourceOp)
  /-- `RuntimeProgress.stage` -/
  | stage (status : DeploymentStatus) (code message : String)

abbrev CandidateOp.Ans : CandidateOp → Type
  | .host op => op.Ans
  | .source op => op.Ans
  | .stage _ _ _ => Unit

abbrev Candidate (α : Type) : Type := Prog CandidateOp CandidateOp.Ans Exc α

namespace Candidate

def raise {α : Type} (x : Exc) : Candidate α := Prog.raise x

def host {α : Type} (p : Host α) : Candidate α := p.embed CandidateOp.host fun _ answer ↦ answer

def source (op : SourceOp) : Candidate op.Ans := Prog.op (CandidateOp.source op)

def stage (status : DeploymentStatus) (code message : String) : Candidate Unit :=
  Prog.op (CandidateOp.stage status code message)

end Candidate

/-! ## Options of a container -/

/-- `_gateway_alias` -/
def gatewayAlias (d : Deployment) (service : RuntimeService) : String :=
  service.name ++ "-g-" ++ d.id.hex12

/-- The options that say what a service finds in its container. -/
inductive ServiceOption where
  | env (name value : String)
  | mount (source destination : String)

def ServiceOption.arguments : ServiceOption → List String
  | .env name value => ["--env", name ++ "=" ++ value]
  | .mount source destination =>
    ["--mount", "type=bind,src=" ++ source ++ ",dst=" ++ destination ++ ",readonly"]

/-- The arguments of `_create_arguments` between the network and the image. -/
def createOptions (d : Deployment) (service : RuntimeService) (options : List ServiceOption) :
    List String :=
  ["--network-alias", service.name, "--network-alias", gatewayAlias d service,
    "--publish", "127.0.0.1::" ++ toString service.internalPort,
    "--label", "heimdall.managed=true",
    "--label", "heimdall.project-id=" ++ d.projectId.str,
    "--label", "heimdall.deployment-id=" ++ d.id.str,
    "--label", "heimdall.kind=service",
    "--env", "HEIMDALL_PROJECT_ID=" ++ d.projectId.str,
    "--env", "HEIMDALL_DEPLOYMENT_ID=" ++ d.id.str]
  ++ options.flatMap ServiceOption.arguments

/-- The names in its network that the options of a container say. -/
def networkAliases : List String → List String
  | "--network-alias" :: value :: options => value :: networkAliases options
  | _ :: _ :: options => networkAliases options
  | _ => []

theorem networkAliases_arguments (options : List ServiceOption) :
    networkAliases (options.flatMap ServiceOption.arguments) = [] := by
  induction options with
  | nil => rfl
  | cons option options ih => cases option <;> simpa [ServiceOption.arguments, networkAliases] using ih

theorem networkAliases_createOptions (d : Deployment) (service : RuntimeService)
    (options : List ServiceOption) :
    networkAliases (createOptions d service options) = [service.name, gatewayAlias d service] := by
  simp [createOptions, networkAliases, networkAliases_arguments]

/-! ## Sources and secrets -/

/-- `_build_paths` -/
def buildPaths (d : Deployment) (service : RuntimeService) : Candidate (String × String) := do
  let buildContext := PosixPath.asPosix service.buildContext
  let context ← Candidate.source (.resolveContext d.id buildContext)
  let dockerfile ← Candidate.source
    (.resolveDockerfile d.id buildContext (PosixPath.asPosix service.dockerfile))
  if !context.inside || !context.present then
    Candidate.raise (.runtimeFailure { stage := "SOURCE", code := "BUILD_CONTEXT_INVALID" })
  if !dockerfile.inside || !dockerfile.present then
    Candidate.raise (.runtimeFailure { stage := "SOURCE", code := "DOCKERFILE_INVALID" })
  pure (context.text, dockerfile.text)

/-- `_bind_mount` -/
def bindMount (file : SecretFile) (destination : String) : Candidate ServiceOption := do
  if !file.isAbsolute || !file.isFile then
    Candidate.raise (.runtimeFailure { stage := "SECRET", code := "SECRET_FILE_INVALID" })
  if ',' ∈ file.text.toList then
    Candidate.raise (.runtimeFailure { stage := "SECRET", code := "SECRET_PATH_INVALID" })
  pure (.mount file.text destination)

def secretOptions (secret : RuntimeSecret) : Candidate (List ServiceOption) := do
  let file ← Candidate.source (.secretResolve secret.reference secret.fingerprint)
  let mount ← bindMount file secret.containerPath
  pure [.env secret.name secret.containerPath, mount]

def databaseOptions (service : RuntimeService) (database : Option RuntimeDatabase) :
    Candidate (List ServiceOption) :=
  if !service.projectDatabaseAccess then pure []
  else match database with
    | none => Candidate.raise
      (.runtimeFailure { stage := "CONFIGURATION", code := "DATABASE_METADATA_MISSING" })
    | some database => do
      let credential ← Candidate.source
        (.secretResolve database.credentialReference database.credentialFingerprint)
      let mount ← bindMount credential database.containerPath
      pure [.env "DATABASE_HOST" database.host, .env "DATABASE_PORT" (toString database.port),
        .env "DATABASE_NAME" database.databaseName, .env "DATABASE_USER" database.username,
        .env "DATABASE_SCHEMA" database.schemaName,
        .env "DATABASE_PASSWORD_FILE" database.containerPath, mount]

/-- The options of a service that are not the same for every service. -/
def serviceOptions (database : Option RuntimeDatabase) (service : RuntimeService) :
    Candidate (List ServiceOption) :=
  Prog.tryCatch
    (do
      let secrets ← service.secrets.mapM secretOptions
      let managed ← databaseOptions service database
      pure (service.environment.map (fun v ↦ .env v.name v.value) ++ secrets.flatten ++ managed))
    fun
      | .secretStore => Candidate.raise
        (.runtimeFailure { stage := "SECRET", code := "SECRET_RESOLUTION_FAILED" })
      | x => Candidate.raise x

/-! ## The steps -/

/-- `_assert_absent` -/
def assertAbsent (x : Resource) : Host Unit := do
  let result ← Host.runIgnored x.inspect
  if result.returncode = 0 then
    Host.raise (.runtimeFailure { stage := "DOCKER", code := "RESOURCE_NAME_CONFLICT" })

def buildImage (d : Deployment) (service : RuntimeService) : Candidate Unit := do
  let (context, dockerfile) ← buildPaths d service
  let _ ← Candidate.host <| Host.runOr
    (.build d.projectId d.id dockerfile (imageName d service) context) "DOCKER_BUILD"
    { stage := "BUILD", code := "IMAGE_BUILD_FAILED" } (some service.name)

def serviceStartFailed : RuntimeFailure :=
  { stage := "START", code := "SERVICE_START_FAILED", retryable := true }

def createContainer (d : Deployment) (database : Option RuntimeDatabase)
    (service : RuntimeService) : Candidate Unit := do
  let options ← serviceOptions database service
  let _ ← Candidate.host <| Host.runOr
    (.create (containerName d service) (networkName d) (createOptions d service options)
      (imageName d service)) "DOCKER_CREATE" serviceStartFailed (some service.name)

def startContainer (d : Deployment) (service : RuntimeService) : Candidate Unit := do
  let _ ← Candidate.host <| Host.runOr (.start (containerName d service)) "DOCKER_START"
    serviceStartFailed (some service.name)

namespace DockerRuntime

variable (docker : DockerRuntime)

def runningService (d : Deployment) (service : RuntimeService) : Candidate RunningService := do
  let failure : RuntimeFailure := { stage := "START", code := "HEALTH_PORT_UNAVAILABLE" }
  let result ← Candidate.host <| Host.runOr
    (.port (containerName d service) service.internalPort) "DOCKER_PORT" failure (some service.name)
  match docker.publishedPort failure result.stdout with
  | .ok port => pure ⟨service.name, containerName d service, imageName d service, port⟩
  | .error x => Candidate.raise x

/-- `start_candidate` -/
def startCandidate (d : Deployment) (runtime : RuntimeDeployment) :
    Candidate CandidateGeneration := do
  Candidate.source (.resolveWorkspace d.id)
  Candidate.host (cleanupCandidate d runtime)
  forM runtime.services fun service ↦ do
    Candidate.host (assertAbsent ⟨.container, containerName d service⟩)
    Candidate.host (assertAbsent ⟨.image, imageName d service⟩)
  Candidate.host (assertAbsent ⟨.network, networkName d⟩)
  Candidate.stage .building "IMAGES_BUILDING" "Building service images from the selected commit"
  forM runtime.services (buildImage d)
  let _ ← Candidate.host <| Host.runOr (.networkCreate d.projectId d.id (networkName d))
    "DOCKER_NETWORK_CREATE" { stage := "DOCKER", code := "NETWORK_CREATE_FAILED", retryable := true }
  Candidate.stage .starting "SERVICES_STARTING" "Starting generation service containers"
  forM runtime.services (createContainer d runtime.database)
  forM runtime.services (startContainer d)
  -- A service that resolves another one as it starts may have exited in the first round.
  forM runtime.services (startContainer d)
  let running ← runtime.services.mapM (docker.runningService d)
  Candidate.stage .healthChecking "SERVICES_HEALTH_CHECKING"
    "Waiting for all candidate services to become healthy"
  let candidate : CandidateGeneration := ⟨networkName d, running⟩
  Candidate.host (docker.verifyCandidate runtime candidate)
  pure candidate

end DockerRuntime

/-! ## What is created -/

def CandidateOp.creates : CandidateOp → Option Resource
  | .host op => op.creates
  | _ => none

/-- The container an operation creates, with its names in the network. -/
def CandidateOp.aliases : CandidateOp → Option (String × List String)
  | .host (.run (.create container _ options _) _ _) => some (container, networkAliases options)
  | _ => none

/-- An operation creates no other object than one of the generation, and a container with the aliases
of its service. -/
structure CandidateOp.Fits (d : Deployment) (runtime : RuntimeDeployment) (o : CandidateOp) :
    Prop where
  created : ∀ x, o.creates = some x → x ∈ generationResources d runtime
  aliased : ∀ container names, o.aliases = some (container, names) →
    ∃ service ∈ runtime.services, container = containerName d service
      ∧ names = [service.name, gatewayAlias d service]

variable {d : Deployment} {runtime : RuntimeDeployment} {service : RuntimeService}

theorem mem_generationResources {x : Resource} : x ∈ generationResources d runtime ↔
    (∃ service ∈ runtime.services, x = ⟨.container, containerName d service⟩)
      ∨ x = ⟨.network, networkName d⟩
      ∨ ∃ service ∈ runtime.services, x = ⟨.image, imageName d service⟩ := by
  simp [generationResources, eq_comm]

theorem CandidateOp.fits_source (op : SourceOp) : (CandidateOp.source op).Fits d runtime :=
  ⟨nofun, nofun⟩

theorem CandidateOp.fits_stage (status : DeploymentStatus) (code message : String) :
    (CandidateOp.stage status code message).Fits d runtime :=
  ⟨nofun, nofun⟩

theorem CandidateOp.fits_host {o : HostOp} (h : o.creates = none) :
    (CandidateOp.host o).Fits d runtime := by
  refine ⟨fun x hx ↦ ?_, fun container names hnames ↦ ?_⟩
  · exact absurd (h.symm.trans hx) nofun
  · cases o with
    | run c check beats =>
      cases c with
      | create => cases h
      | _ => cases hnames
    | _ => cases hnames

theorem CandidateOp.fits_build (hservice : service ∈ runtime.services)
    (dockerfile context : String) : (CandidateOp.host (.run
      (.build d.projectId d.id dockerfile (imageName d service) context) true true)).Fits d runtime := by
  refine ⟨fun x hx ↦ ?_, nofun⟩
  obtain rfl := Option.some.inj hx
  exact mem_generationResources.mpr (.inr (.inr ⟨service, hservice, rfl⟩))

theorem CandidateOp.fits_networkCreate : (CandidateOp.host (.run
    (.networkCreate d.projectId d.id (networkName d)) true true)).Fits d runtime := by
  refine ⟨fun x hx ↦ ?_, nofun⟩
  obtain rfl := Option.some.inj hx
  exact mem_generationResources.mpr (.inr (.inl rfl))

theorem CandidateOp.fits_create (hservice : service ∈ runtime.services)
    (options : List ServiceOption) : (CandidateOp.host (.run (.create (containerName d service)
      (networkName d) (createOptions d service options) (imageName d service)) true true)).Fits
      d runtime := by
  refine ⟨fun x hx ↦ ?_, fun container names hnames ↦ ?_⟩
  · obtain rfl := Option.some.inj hx
    exact mem_generationResources.mpr (.inl ⟨service, hservice, rfl⟩)
  · obtain ⟨rfl, rfl⟩ := Prod.mk.inj (Option.some.inj hnames)
    exact ⟨service, hservice, rfl, networkAliases_createOptions d service options⟩

/-! ### Parts that create nothing -/

/-- Nothing is created. -/
def CreatesNothing {α : Type} (p : Host α) : Prop := p.Uses fun o ↦ o.creates = none

theorem createsNothing_inspect (x : Resource) (beats : Bool) :
    CreatesNothing (Host.runIgnored x.inspect beats) := by
  obtain ⟨kind, name⟩ := x
  cases kind <;> exact uses_runIgnored rfl

theorem createsNothing_remove (x : Resource) : CreatesNothing (Host.runIgnored x.remove) := by
  obtain ⟨kind, name⟩ := x
  cases kind <;> exact uses_runIgnored rfl

theorem removeManaged_createsNothing (deployment : Uuid) (x : Resource) :
    CreatesNothing (removeManaged deployment x) := by
  refine Prog.Uses.bind ((createsNothing_inspect x false).bind fun _ ↦ trivial) fun managed ↦ ?_
  cases managed with
  | true => exact (createsNothing_remove x).bind fun _ ↦ trivial
  | false => trivial

theorem cleanupCandidate_createsNothing (d : Deployment) (runtime : RuntimeDeployment) :
    CreatesNothing (cleanupCandidate d runtime) :=
  .forM fun x _ ↦ removeManaged_createsNothing d.id x

theorem assertAbsent_createsNothing (x : Resource) : CreatesNothing (assertAbsent x) := by
  refine (createsNothing_inspect x false).bind fun result ↦ ?_
  split <;> trivial

theorem waitUntilHealthy_createsNothing (url : String) (n : ℕ) :
    CreatesNothing (DockerRuntime.waitUntilHealthy url n) := by
  induction n with
  | zero => trivial
  | succ n ih =>
    refine Prog.Uses.bind (Prog.uses_op.mpr rfl) fun ahead ↦ ?_
    split
    · refine Prog.Uses.bind (.tryCatch (.bind (Prog.uses_op.mpr rfl) fun _ ↦ trivial) fun x ↦ ?_)
        fun healthy ↦ ?_
      · cases x <;> trivial
      · split
        · trivial
        · exact .bind (Prog.uses_op.mpr rfl) fun _ ↦ ih
    · trivial

theorem verifyServices_createsNothing (docker : DockerRuntime) (services : List RuntimeService)
    (items : List RunningService) : CreatesNothing (docker.verifyServices services items) := by
  induction services generalizing items with
  | nil => cases items <;> trivial
  | cons service services ih =>
    cases items with
    | nil => trivial
    | cons item items =>
      exact (waitUntilHealthy_createsNothing _ _).bind fun _ ↦ ih items

theorem CreatesNothing.fits {α : Type} {p : Host α} (h : CreatesNothing p) :
    (Candidate.host p).Uses (CandidateOp.Fits d runtime) :=
  (h.mono fun _ ho ↦ CandidateOp.fits_host ho).embed

/-! ### The whole start -/

theorem bindMount_fits (file : SecretFile) (destination : String) :
    (bindMount file destination).Uses (CandidateOp.Fits d runtime) := by
  unfold bindMount
  dsimp only
  split <;> split <;> trivial

theorem serviceOptions_fits (database : Option RuntimeDatabase) (service : RuntimeService) :
    (serviceOptions database service).Uses (CandidateOp.Fits d runtime) := by
  have hfile (reference fingerprint : String) :
      (Candidate.source (.secretResolve reference fingerprint)).Uses (CandidateOp.Fits d runtime) :=
    Prog.uses_op.mpr (CandidateOp.fits_source _)
  have hsecret (secret : RuntimeSecret) :
      (secretOptions secret).Uses (CandidateOp.Fits d runtime) :=
    (hfile _ _).bind fun file ↦ (bindMount_fits file _).bind fun _ ↦ trivial
  have hdatabase : (databaseOptions service database).Uses (CandidateOp.Fits d runtime) := by
    unfold databaseOptions
    split
    · trivial
    · split
      · trivial
      · exact (hfile _ _).bind fun file ↦ (bindMount_fits file _).bind fun _ ↦ trivial
  refine Prog.Uses.tryCatch ((Prog.Uses.mapM fun secret _ ↦ hsecret secret).bind fun _ ↦
    hdatabase.bind fun _ ↦ trivial) fun x ↦ ?_
  cases x <;> trivial

theorem buildPaths_fits (service : RuntimeService) :
    (buildPaths d service).Uses (CandidateOp.Fits d runtime) := by
  refine Prog.Uses.bind (Prog.uses_op.mpr (CandidateOp.fits_source _)) fun context ↦ ?_
  refine Prog.Uses.bind (Prog.uses_op.mpr (CandidateOp.fits_source _)) fun dockerfile ↦ ?_
  dsimp only
  split <;> split <;> trivial

theorem buildImage_fits (hservice : service ∈ runtime.services) :
    (buildImage d service).Uses (CandidateOp.Fits d runtime) :=
  (buildPaths_fits service).bind fun _ ↦
    (uses_runOr (CandidateOp.fits_build hservice _ _)).embed.bind fun _ ↦ trivial

theorem createContainer_fits (hservice : service ∈ runtime.services)
    (database : Option RuntimeDatabase) :
    (createContainer d database service).Uses (CandidateOp.Fits d runtime) :=
  (serviceOptions_fits database service).bind fun options ↦
    (uses_runOr (CandidateOp.fits_create hservice options)).embed.bind fun _ ↦ trivial

theorem startContainer_fits (service : RuntimeService) :
    (startContainer d service).Uses (CandidateOp.Fits d runtime) :=
  (uses_runOr (CandidateOp.fits_host rfl)).embed.bind fun _ ↦ trivial

theorem runningService_fits (docker : DockerRuntime) (service : RuntimeService) :
    (docker.runningService d service).Uses (CandidateOp.Fits d runtime) := by
  refine (uses_runOr (CandidateOp.fits_host rfl)).embed.bind fun result ↦ ?_
  split <;> trivial

theorem stage_fits (status : DeploymentStatus) (code message : String) :
    (Candidate.stage status code message).Uses (CandidateOp.Fits d runtime) :=
  Prog.uses_op.mpr (CandidateOp.fits_stage status code message)

theorem startCandidate_fits (docker : DockerRuntime) (d : Deployment) (runtime : RuntimeDeployment) :
    (docker.startCandidate d runtime).Uses (CandidateOp.Fits d runtime) := by
  have habsent (x : Resource) :
      (Candidate.host (assertAbsent x)).Uses (CandidateOp.Fits d runtime) :=
    (assertAbsent_createsNothing x).fits
  unfold DockerRuntime.startCandidate
  refine .bind (Prog.uses_op.mpr (CandidateOp.fits_source _)) fun _ ↦ ?_
  refine .bind (cleanupCandidate_createsNothing d runtime).fits fun _ ↦ ?_
  refine .bind (.forM fun service _ ↦ (habsent _).bind fun _ ↦ habsent _) fun _ ↦ ?_
  refine .bind (habsent _) fun _ ↦ ?_
  refine .bind (stage_fits _ _ _) fun _ ↦ ?_
  refine .bind (.forM fun service hservice ↦ buildImage_fits hservice) fun _ ↦ ?_
  refine .bind (uses_runOr CandidateOp.fits_networkCreate).embed fun _ ↦ ?_
  refine .bind (stage_fits _ _ _) fun _ ↦ ?_
  refine .bind (.forM fun service hservice ↦ createContainer_fits hservice _) fun _ ↦ ?_
  refine .bind (.forM fun service _ ↦ startContainer_fits service) fun _ ↦ ?_
  refine .bind (.forM fun service _ ↦ startContainer_fits service) fun _ ↦ ?_
  refine .bind (.mapM fun service _ ↦ runningService_fits docker service) fun running ↦ ?_
  refine .bind (stage_fits _ _ _) fun _ ↦ ?_
  exact .bind (verifyServices_createsNothing docker _ _).fits fun _ ↦ trivial

section Performs

variable {P : CandidateOp → Prop} (docker : DockerRuntime)

theorem startCandidate_performs_build (hservice : service ∈ runtime.services)
    (h : ∀ dockerfile context, P (.host (.run
      (.build d.projectId d.id dockerfile (imageName d service) context) true true))) :
    (docker.startCandidate d runtime).Performs P := by
  unfold DockerRuntime.startCandidate
  refine .bind_right fun _ ↦ .bind_right fun _ ↦ .bind_right fun _ ↦ .bind_right fun _ ↦
    .bind_right fun _ ↦ .bind (.forM hservice ?_)
  exact .bind_right fun paths ↦ .bind (performs_runOr (h paths.2 paths.1)).embed

theorem startCandidate_performs_networkCreate
    (h : P (.host (.run (.networkCreate d.projectId d.id (networkName d)) true true))) :
    (docker.startCandidate d runtime).Performs P := by
  unfold DockerRuntime.startCandidate
  exact .bind_right fun _ ↦ .bind_right fun _ ↦ .bind_right fun _ ↦ .bind_right fun _ ↦
    .bind_right fun _ ↦ .bind_right fun _ ↦ .bind (performs_runOr h).embed

theorem startCandidate_performs_create (hservice : service ∈ runtime.services)
    (h : ∀ options, P (.host (.run (.create (containerName d service) (networkName d)
      (createOptions d service options) (imageName d service)) true true))) :
    (docker.startCandidate d runtime).Performs P := by
  unfold DockerRuntime.startCandidate
  refine .bind_right fun _ ↦ .bind_right fun _ ↦ .bind_right fun _ ↦ .bind_right fun _ ↦
    .bind_right fun _ ↦ .bind_right fun _ ↦ .bind_right fun _ ↦ .bind_right fun _ ↦
    .bind (.forM hservice ?_)
  exact .bind_right fun options ↦ .bind (performs_runOr (h options)).embed

end Performs

/-! ## Generations that were started -/

/-- A deployment whose snapshot was accepted and whose candidate was started. -/
structure StartedGeneration (docker : DockerRuntime) where
  deployment : Deployment
  runtime : RuntimeDeployment
  accepted : RuntimeDeployment.fromDeployment deployment = .ok runtime
  candidate : CandidateGeneration
  events : List (Event Unit CandidateOp CandidateOp.Ans Exc)
  /-- The operations may have answered anything. -/
  started : Ends (fun _ _ _ _ ↦ True) (docker.startCandidate deployment runtime) () events
    (.ok candidate) ()

namespace StartedGeneration

variable {docker : DockerRuntime} (g : StartedGeneration docker)

/-- The start of the generation has created an object. -/
def Created (x : Resource) : Prop :=
  ∃ e ∈ g.events, e.op.creates = some x ∧ ∃ answer, e.ans = .ok answer

/-- The start of the generation has given a container a name in its network. -/
def Aliased (container name : String) : Prop :=
  ∃ e ∈ g.events, (∃ names, e.op.aliases = some (container, names) ∧ name ∈ names)
    ∧ ∃ answer, e.ans = .ok answer

theorem fits {e : Event Unit CandidateOp CandidateOp.Ans Exc} (he : e ∈ g.events) :
    e.op.Fits g.deployment g.runtime :=
  (g.started.uses (startCandidate_fits docker g.deployment g.runtime)).1 e he

theorem created_of {x : Resource} (h : (docker.startCandidate g.deployment g.runtime).Performs
    fun o ↦ o.creates = some x) : g.Created x :=
  g.started.performs h

theorem aliased_of {container name : String}
    (h : (docker.startCandidate g.deployment g.runtime).Performs
      fun o ↦ ∃ names, o.aliases = some (container, names) ∧ name ∈ names) :
    g.Aliased container name :=
  g.started.performs h

theorem created_iff {x : Resource} :
    g.Created x ↔ x ∈ generationResources g.deployment g.runtime := by
  constructor
  · rintro ⟨e, he, hx, -⟩
    exact (g.fits he).created x hx
  · intro hx
    rcases mem_generationResources.mp hx with ⟨service, hservice, rfl⟩ | rfl | ⟨service, hservice, rfl⟩
    · exact g.created_of (startCandidate_performs_create docker hservice fun _ ↦ rfl)
    · exact g.created_of (startCandidate_performs_networkCreate docker rfl)
    · exact g.created_of (startCandidate_performs_build docker hservice fun _ _ ↦ rfl)

theorem aliased_iff {container name : String} : g.Aliased container name ↔
    ∃ service ∈ g.runtime.services, container = containerName g.deployment service
      ∧ (name = service.name ∨ name = gatewayAlias g.deployment service) := by
  constructor
  · rintro ⟨e, he, ⟨names, hnames, hname⟩, -⟩
    obtain ⟨service, hservice, rfl, rfl⟩ := (g.fits he).aliased container names hnames
    exact ⟨service, hservice, rfl, by simpa using hname⟩
  · rintro ⟨service, hservice, rfl, hname⟩
    refine g.aliased_of (startCandidate_performs_create docker hservice fun options ↦ ⟨_, rfl, ?_⟩)
    rw [networkAliases_createOptions]
    simpa using hname

end StartedGeneration

end Heimdall
