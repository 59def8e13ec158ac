import Heimdall.Runtime.Candidate
import Heimdall.Runtime.Locations

/-!
# The Docker objects of a project

Before the objects of a project are removed, `ProjectRuntimeTeardown._expected_resources` says which
ones there can be: the gateway, when the project has a runtime row, and those of every deployment.
Their names are built here once more, from the same identifiers as where the objects are created.

## Three builders of names

`expectedResources` names what is torn down, `DockerRuntime.startCandidate` what is created, and
`renderNginxConfig` the host a route leads to. `NamesAgree` says that they fit together. A host is the
name of a service followed by the generation, and this can be the name of another service
(`namesAgree_iff`).
-/

namespace Heimdall

open Effect

/-! ## Expected objects -/

/-- The values of the label `heimdall.kind`. -/
inductive LabelKind where
  | gateway
  | service
  | network
  | image
deriving DecidableEq

def LabelKind.text : LabelKind → String
  | .gateway => "gateway"
  | .service => "service"
  | .network => "network"
  | .image => "image"

/-- `_ExpectedResource` -/
structure ExpectedResource where
  dockerKind : ResourceKind
  labelKind : LabelKind
  name : String
  deploymentId : Option Uuid
deriving DecidableEq

def ExpectedResource.resource (x : ExpectedResource) : Resource := ⟨x.dockerKind, x.name⟩

/-- What `_uncertain` raises. -/
def resourcesUncertain (retryable : Bool := false) : Exc :=
  .runtimeFailure
    { stage := "DELETION", code := "PROJECT_RESOURCES_UNCERTAIN", retryable := retryable,
      cleanupCandidate := false }

def gatewayResource (project : Uuid) : ExpectedResource :=
  ⟨.container, .gateway, gatewayName project, none⟩

/-- The objects of one service. -/
def serviceResources (project : Uuid) (d : Deployment) (service : RuntimeService) :
    List ExpectedResource :=
  [⟨.container, .service, "hm-p" ++ project.hex12 ++ "-" ++ service.name ++ "-g" ++ d.id.hex12,
      some d.id⟩,
    ⟨.image, .image, "heimdall/" ++ project.hex ++ ":g" ++ d.id.hex12 ++ "-" ++ service.name,
      some d.id⟩]

/-- The objects of one deployment. -/
def deploymentResources (project : Uuid) (d : Deployment) (runtime : RuntimeDeployment) :
    List ExpectedResource :=
  ⟨.network, .network, "hm-p" ++ project.hex12 ++ "-g" ++ d.id.hex12, some d.id⟩
    :: runtime.services.flatMap (serviceResources project d)

/-- The gateway of a project with a runtime row. -/
def expectedGateway (project : Uuid) : Option ProjectRuntime → Except Exc (List ExpectedResource)
  | none => .ok []
  | some row =>
    if row.projectId ≠ project ∨ row.gatewayContainerName ≠ gatewayName project then
      .error resourcesUncertain
    else .ok [gatewayResource project]

/-- The objects of a deployment whose snapshot can be read. -/
def expectedGeneration (project : Uuid) (d : Deployment) : Except Exc (List ExpectedResource) :=
  match RuntimeDeployment.fromDeployment d with
  | .ok runtime => .ok (deploymentResources project d runtime)
  | .error (.runtimeConfiguration _) => .error resourcesUncertain
  | .error x => .error x

/-- Two lists have the same elements. -/
def SameElements {α : Type} (xs ys : List α) : Prop := xs ⊆ ys ∧ ys ⊆ xs

instance {α : Type} [DecidableEq α] (xs ys : List α) : Decidable (SameElements xs ys) :=
  inferInstanceAs (Decidable (_ ∧ _))

/-- The names of the objects of a deployment with a label. -/
def namesOf (resources : List ExpectedResource) (deployment : Uuid) (kind : LabelKind) :
    List String :=
  (resources.filter fun x ↦ x.deploymentId = some deployment ∧ x.labelKind = kind).map (·.name)

/-- `_validate_runtime_snapshot` -/
def validateRuntimeSnapshot (row : ProjectRuntime) (resources : List ExpectedResource)
    (deployments : List Deployment) : Except Exc Unit :=
  match row.activeDeploymentId with
  | none =>
    if row.activeNetworkName ≠ none ∨ row.activeContainerNames ≠ [] ∨ row.activeImageNames ≠ [] then
      .error resourcesUncertain
    else .ok ()
  | some active =>
    if active ∉ deployments.map Deployment.id then .error resourcesUncertain
    else if ¬ SameElements [row.activeNetworkName] ((namesOf resources active .network).map some)
        ∨ ¬ SameElements row.activeContainerNames (namesOf resources active .service)
        ∨ ¬ SameElements row.activeImageNames (namesOf resources active .image) then
      .error resourcesUncertain
    else .ok ()

/-- `_expected_resources` -/
def expectedResources (project : Uuid) (deployments : List Deployment)
    (runtime : Option ProjectRuntime) : Except Exc (List ExpectedResource) := do
  let gateway ← expectedGateway project runtime
  if ¬ (deployments.map Deployment.id).Nodup ∨ ∃ d ∈ deployments, d.projectId ≠ project then
    .error resourcesUncertain
  else
    let generations ← deployments.mapM (expectedGeneration project)
    let resources := gateway ++ generations.flatten
    if ¬ (resources.map ExpectedResource.resource).Nodup then .error resourcesUncertain
    else
      match runtime with
      | none => .ok resources
      | some row => do
        validateRuntimeSnapshot row resources deployments
        .ok resources

/-! ## Names are distinct -/

theorem length_hex12 (u : Uuid) : u.hex12.toList.length = 12 := by
  rw [Uuid.hex12, String.toList_ofList, List.length_take, Uuid.chars, List.length_map,
    u.length_digits]
  rfl

section Names

variable {d d' : Deployment} {service service' : RuntimeService}

theorem networkName_hex12 (hproject : d.projectId = d'.projectId)
    (h : networkName d = networkName d') : d.id.hex12 = d'.id.hex12 := by
  rw [networkName, networkName, hproject] at h
  have hchars := congrArg String.toList h
  simp only [String.toList_append] at hchars
  exact String.toList_injective (List.append_cancel_left hchars)

theorem containerName_hex12 (hproject : d.projectId = d'.projectId)
    (h : containerName d service = containerName d' service') :
    d.id.hex12 = d'.id.hex12 ∧ service.name = service'.name := by
  rw [containerName, containerName, hproject] at h
  have hchars := congrArg String.toList h
  simp only [String.toList_append] at hchars
  obtain ⟨hfront, hid⟩ := List.append_inj' hchars (by rw [length_hex12, length_hex12])
  have hname := List.append_cancel_left (List.append_cancel_right hfront)
  exact ⟨String.toList_injective hid, String.toList_injective hname⟩

theorem imageName_hex12 (hproject : d.projectId = d'.projectId)
    (h : imageName d service = imageName d' service') :
    d.id.hex12 = d'.id.hex12 ∧ service.name = service'.name := by
  rw [imageName, imageName, hproject] at h
  have hchars := congrArg String.toList h
  simp only [String.toList_append, List.append_assoc] at hchars
  have htail := List.append_cancel_left (List.append_cancel_left (List.append_cancel_left hchars))
  obtain ⟨hid, hname⟩ := List.append_inj htail (by rw [length_hex12, length_hex12])
  exact ⟨String.toList_injective hid, String.toList_injective (List.append_cancel_left hname)⟩

theorem gatewayName_ne_containerName : gatewayName d.projectId ≠ containerName d service := by
  intro h
  have hchars := congrArg (fun name : String ↦ name.toList.length) h
  simp only [gatewayName, containerName, String.toList_append, List.length_append, length_hex12]
    at hchars
  have hgateway : "-gateway".toList.length = 8 := rfl
  have hdash : "-".toList.length = 1 := rfl
  have hmark : "-g".toList.length = 2 := rfl
  omega

end Names

/-! ## The expected objects of a deployment -/

theorem mem_deploymentResources {d : Deployment} {runtime : RuntimeDeployment} {x : Resource} :
    x ∈ (deploymentResources d.projectId d runtime).map ExpectedResource.resource
      ↔ x ∈ generationResources d runtime := by
  rw [mem_generationResources, deploymentResources]
  simp only [List.map_cons, List.map_flatMap, serviceResources, List.map_nil, List.mem_cons,
    List.mem_flatMap, ExpectedResource.resource, List.not_mem_nil, or_false]
  constructor
  · rintro (rfl | ⟨service, hservice, rfl | rfl⟩)
    · exact .inr (.inl rfl)
    · exact .inl ⟨service, hservice, rfl⟩
    · exact .inr (.inr ⟨service, hservice, rfl⟩)
  · rintro (⟨service, hservice, rfl⟩ | rfl | ⟨service, hservice, rfl⟩)
    · exact .inr ⟨service, hservice, .inl rfl⟩
    · exact .inl rfl
    · exact .inr ⟨service, hservice, .inr rfl⟩

/-- The kind of an object with a label. -/
def LabelKind.dockerKind : LabelKind → ResourceKind
  | .gateway | .service => .container
  | .network => .network
  | .image => .image

/-- The names of the objects of a generation with a label. -/
def generationNames (d : Deployment) (runtime : RuntimeDeployment) : LabelKind → List String
  | .gateway => []
  | .service => runtime.services.map (containerName d)
  | .network => [networkName d]
  | .image => runtime.services.map (imageName d)

theorem mem_deploymentResources_iff {d : Deployment} {runtime : RuntimeDeployment}
    {x : ExpectedResource} : x ∈ deploymentResources d.projectId d runtime ↔
      x.deploymentId = some d.id ∧ x.dockerKind = x.labelKind.dockerKind
        ∧ x.name ∈ generationNames d runtime x.labelKind := by
  obtain ⟨dockerKind, labelKind, name, deploymentId⟩ := x
  simp only [deploymentResources, List.mem_cons, List.mem_flatMap, serviceResources,
    List.not_mem_nil, or_false, ExpectedResource.mk.injEq]
  constructor
  · rintro (⟨rfl, rfl, rfl, rfl⟩ | ⟨service, hservice, ⟨rfl, rfl, rfl, rfl⟩ | ⟨rfl, rfl, rfl, rfl⟩⟩)
    · exact ⟨rfl, rfl, List.mem_singleton_self _⟩
    · exact ⟨rfl, rfl, List.mem_map_of_mem hservice⟩
    · exact ⟨rfl, rfl, List.mem_map_of_mem hservice⟩
  · rintro ⟨rfl, rfl, hname⟩
    cases labelKind with
    | gateway => cases hname
    | network =>
      obtain rfl := List.mem_singleton.mp hname
      exact .inl ⟨rfl, rfl, rfl, rfl⟩
    | service =>
      obtain ⟨service, hservice, rfl⟩ := List.mem_map.mp hname
      exact .inr ⟨service, hservice, .inl ⟨rfl, rfl, rfl, rfl⟩⟩
    | image =>
      obtain ⟨service, hservice, rfl⟩ := List.mem_map.mp hname
      exact .inr ⟨service, hservice, .inr ⟨rfl, rfl, rfl, rfl⟩⟩

theorem nodup_deploymentResources (d : Deployment) (runtime : RuntimeDeployment) :
    ((deploymentResources d.projectId d runtime).map ExpectedResource.resource).Nodup := by
  have hmem (service : RuntimeService) (x : Resource) :
      x ∈ (serviceResources d.projectId d service).map ExpectedResource.resource
        ↔ x = ⟨.container, containerName d service⟩ ∨ x = ⟨.image, imageName d service⟩ := by
    simp [serviceResources, ExpectedResource.resource, containerName, imageName]
  rw [deploymentResources, List.map_cons, List.map_flatMap, List.nodup_cons, List.nodup_flatMap]
  refine ⟨fun hnetwork ↦ ?_, fun service _ ↦ ?_, ?_⟩
  · obtain ⟨service, -, hx⟩ := List.mem_flatMap.mp hnetwork
    rcases (hmem service _).mp hx with heq | heq <;> cases (Resource.mk.inj heq).1
  · simp [serviceResources, ExpectedResource.resource]
  · refine (List.pairwise_map.mp runtime.names_nodup).imp fun {a b} hne x ha hb ↦ hne ?_
    rcases (hmem a x).mp ha with rfl | rfl <;> rcases (hmem b _).mp hb with heq | heq
    · exact (containerName_hex12 rfl (Resource.mk.inj heq).2).2
    · cases (Resource.mk.inj heq).1
    · cases (Resource.mk.inj heq).1
    · exact (imageName_hex12 rfl (Resource.mk.inj heq).2).2

/-! ## Generations of one project -/

variable {docker : DockerRuntime} {project : Uuid}

/-- The generations of a project that were started. Their deployments are told apart by the first
twelve digits of their identifiers. -/
structure ProjectGenerations (docker : DockerRuntime) (project : Uuid) where
  generations : List (StartedGeneration docker)
  project_eq : ∀ g ∈ generations, g.deployment.projectId = project
  hex12_nodup : (generations.map fun g ↦ g.deployment.id.hex12).Nodup

/-- A runtime row as it is written: no generation is active, or one of these. -/
inductive ProjectGenerations.Row (ps : ProjectGenerations docker project) : ProjectRuntime → Prop
  | idle (previewPort : ℕ) (updatedAt : Time) :
    Row ps
      { projectId := project
        gatewayContainerName := gatewayName project
        previewPort := previewPort
        updatedAt := updatedAt }
  | active (g : StartedGeneration docker) (hg : g ∈ ps.generations) (previewPort : ℕ)
    (updatedAt : Time) :
    Row ps
      { projectId := project
        gatewayContainerName := gatewayName project
        previewPort := previewPort
        activeDeploymentId := some g.deployment.id
        activeNetworkName := some (networkName g.deployment)
        activeContainerNames := g.runtime.services.map (containerName g.deployment)
        activeImageNames := g.runtime.services.map (imageName g.deployment)
        updatedAt := updatedAt }

namespace ProjectGenerations

variable (ps : ProjectGenerations docker project)

def deployments : List Deployment := ps.generations.map StartedGeneration.deployment

/-- The objects of all the deployments. -/
def resources : List ExpectedResource :=
  ps.generations.flatMap fun g ↦ deploymentResources project g.deployment g.runtime

theorem mapM_expectedGeneration : ps.deployments.mapM (expectedGeneration project)
    = .ok (ps.generations.map fun g ↦ deploymentResources project g.deployment g.runtime) := by
  rw [deployments]
  induction ps.generations with
  | nil => rfl
  | cons g gs ih =>
    have hhead : expectedGeneration project g.deployment
        = .ok (deploymentResources project g.deployment g.runtime) := by
      rw [expectedGeneration, g.accepted]
    rw [List.map_cons, List.mapM_cons, hhead, ih]
    rfl

theorem mem_resources {x : Resource} : x ∈ ps.resources.map ExpectedResource.resource
    ↔ ∃ g ∈ ps.generations, x ∈ generationResources g.deployment g.runtime := by
  rw [resources, List.map_flatMap, List.mem_flatMap]
  refine exists_congr fun g ↦ and_congr_right fun hg ↦ ?_
  rw [← ps.project_eq g hg, mem_deploymentResources]

/-- Deployments are told apart by the names of their objects. -/
theorem generationResources_disjoint {d d' : Deployment} {runtime runtime' : RuntimeDeployment}
    (hproject : d.projectId = d'.projectId) (hne : d.id.hex12 ≠ d'.id.hex12) {x : Resource}
    (hx : x ∈ generationResources d runtime) : x ∉ generationResources d' runtime' := by
  intro hx'
  refine hne ?_
  rcases mem_generationResources.mp hx with ⟨service, -, rfl⟩ | rfl | ⟨service, -, rfl⟩
  · rcases mem_generationResources.mp hx' with ⟨service', -, heq⟩ | heq | ⟨service', -, heq⟩
    · exact (containerName_hex12 hproject (Resource.mk.inj heq).2).1
    · cases congrArg Resource.kind heq
    · cases congrArg Resource.kind heq
  · rcases mem_generationResources.mp hx' with ⟨service', -, heq⟩ | heq | ⟨service', -, heq⟩
    · cases congrArg Resource.kind heq
    · exact networkName_hex12 hproject (Resource.mk.inj heq).2
    · cases congrArg Resource.kind heq
  · rcases mem_generationResources.mp hx' with ⟨service', -, heq⟩ | heq | ⟨service', -, heq⟩
    · cases congrArg Resource.kind heq
    · cases congrArg Resource.kind heq
    · exact (imageName_hex12 hproject (Resource.mk.inj heq).2).1

theorem nodup_resources : (ps.resources.map ExpectedResource.resource).Nodup := by
  rw [resources, List.map_flatMap, List.nodup_flatMap]
  constructor
  · intro g hg
    rw [← ps.project_eq g hg]
    exact nodup_deploymentResources _ _
  · refine (List.pairwise_map.mp ps.hex12_nodup).imp_of_mem fun {a b} ha hb hne x hxa hxb ↦ ?_
    have hproject : a.deployment.projectId = b.deployment.projectId :=
      (ps.project_eq a ha).trans (ps.project_eq b hb).symm
    rw [← ps.project_eq a ha, mem_deploymentResources] at hxa
    rw [← ps.project_eq b hb, mem_deploymentResources] at hxb
    exact generationResources_disjoint hproject hne hxa hxb

theorem gateway_notMem_resources :
    (gatewayResource project).resource ∉ ps.resources.map ExpectedResource.resource := by
  intro h
  obtain ⟨g, hg, hx⟩ := ps.mem_resources.mp h
  rcases mem_generationResources.mp hx with ⟨service, -, heq⟩ | heq | ⟨service, -, heq⟩
  · have hname : gatewayName project = containerName g.deployment service := (Resource.mk.inj heq).2
    rw [← ps.project_eq g hg] at hname
    exact gatewayName_ne_containerName hname
  · exact nomatch (Resource.mk.inj heq).1
  · exact nomatch (Resource.mk.inj heq).1

theorem nodup_deployments : (ps.deployments.map Deployment.id).Nodup := by
  have h := ps.hex12_nodup
  have hcomp : (fun g : StartedGeneration docker ↦ g.deployment.id.hex12)
      = Uuid.hex12 ∘ Deployment.id ∘ StartedGeneration.deployment := rfl
  rw [hcomp, ← List.map_map] at h
  rw [deployments, List.map_map]
  exact h.of_map _

/-! ### The derivation -/

/-- The expected objects with those of the gateway. -/
def allResources (runtime : Option ProjectRuntime) : List ExpectedResource :=
  (if runtime.isSome then [gatewayResource project] else []) ++ ps.resources

theorem nodup_allResources (runtime : Option ProjectRuntime) :
    ((ps.allResources runtime).map ExpectedResource.resource).Nodup := by
  rw [allResources, List.map_append, List.nodup_append]
  refine ⟨by split <;> simp, ps.nodup_resources, fun x hx y hy heq ↦ ?_⟩
  split at hx
  · obtain rfl := List.mem_singleton.mp hx
    exact ps.gateway_notMem_resources (heq ▸ hy)
  · cases hx

variable {ps}

theorem sameElements_namesOf (runtime : Option ProjectRuntime) {g : StartedGeneration docker}
    (hg : g ∈ ps.generations) (kind : LabelKind) :
    SameElements (generationNames g.deployment g.runtime kind)
      (namesOf (ps.allResources runtime) g.deployment.id kind) := by
  have hnames {x : ExpectedResource} {g' : StartedGeneration docker} (hg' : g' ∈ ps.generations) :
      x ∈ deploymentResources project g'.deployment g'.runtime ↔
        x.deploymentId = some g'.deployment.id ∧ x.dockerKind = x.labelKind.dockerKind
          ∧ x.name ∈ generationNames g'.deployment g'.runtime x.labelKind := by
    rw [← ps.project_eq g' hg']
    exact mem_deploymentResources_iff
  constructor
  · intro name hname
    refine List.mem_map.mpr ⟨⟨kind.dockerKind, kind, name, some g.deployment.id⟩, ?_, rfl⟩
    refine List.mem_filter.mpr ⟨List.mem_append_right _ (List.mem_flatMap.mpr ⟨g, hg, ?_⟩), by simp⟩
    exact (hnames hg).mpr ⟨rfl, rfl, hname⟩
  · intro name hname
    obtain ⟨x, hx, rfl⟩ := List.mem_map.mp hname
    simp only [List.mem_filter, decide_eq_true_eq] at hx
    obtain ⟨hx, hid, rfl⟩ := hx
    rcases List.mem_append.mp hx with hx | hx
    · split at hx
      · obtain rfl := List.mem_singleton.mp hx
        cases hid
      · cases hx
    · obtain ⟨g', hg', hx⟩ := List.mem_flatMap.mp hx
      obtain ⟨howner, -, hgenerated⟩ := (hnames hg').mp hx
      have hsame : g'.deployment.id = g.deployment.id := Option.some.inj (howner.symm.trans hid)
      obtain rfl := List.inj_on_of_nodup_map ps.hex12_nodup hg' hg (congrArg Uuid.hex12 hsame)
      exact hgenerated

theorem validateRuntimeSnapshot_row {row : ProjectRuntime} (h : ps.Row row) :
    validateRuntimeSnapshot row (ps.allResources (some row)) ps.deployments = .ok () := by
  cases h with
  | idle previewPort updatedAt => rfl
  | active g hg previewPort updatedAt =>
    have hmem : g.deployment.id ∈ ps.deployments.map Deployment.id :=
      List.mem_map_of_mem (List.mem_map_of_mem hg)
    rw [validateRuntimeSnapshot]
    dsimp only
    rw [if_neg (not_not.mpr hmem), if_neg]
    rintro (hnetwork | hcontainers | himages)
    · obtain ⟨hsub, hsup⟩ := sameElements_namesOf _ hg .network
      exact hnetwork ⟨List.map_subset some hsub, List.map_subset some hsup⟩
    · exact hcontainers (sameElements_namesOf _ hg .service)
    · exact himages (sameElements_namesOf _ hg .image)

theorem expectedResources_eq {runtime : Option ProjectRuntime}
    (h : ∀ row, runtime = some row → ps.Row row) :
    expectedResources project ps.deployments runtime = .ok (ps.allResources runtime) := by
  have hgateway : expectedGateway project runtime
      = .ok (if runtime.isSome then [gatewayResource project] else []) := by
    cases runtime with
    | none => rfl
    | some row =>
      have hrow := h row rfl
      cases hrow <;> simp [expectedGateway]
  have hproject : ¬∃ d ∈ ps.deployments, d.projectId ≠ project := by
    rintro ⟨d, hd, hne⟩
    obtain ⟨g, hg, rfl⟩ := List.mem_map.mp hd
    exact hne (ps.project_eq g hg)
  have hall : (if runtime.isSome then [gatewayResource project] else [])
      ++ (ps.generations.map fun g ↦ deploymentResources project g.deployment g.runtime).flatten
      = ps.allResources runtime := rfl
  rw [expectedResources, hgateway, ps.mapM_expectedGeneration]
  change (if _ then _ else _) = _
  rw [if_neg (not_or.mpr ⟨not_not.mpr ps.nodup_deployments, hproject⟩)]
  change (if _ then _ else _) = _
  rw [hall, if_neg (not_not.mpr (nodup_allResources ps runtime))]
  cases runtime with
  | none => rfl
  | some row =>
    dsimp only
    rw [validateRuntimeSnapshot_row (h row rfl)]
    rfl

end ProjectGenerations

/-! ## The host of a route -/

/-- What comes before the port of an upstream that nginx reads off the written configuration of a
generation for a route. -/
def StartedGeneration.Upstream (g : StartedGeneration docker) (route : RuntimeRoute)
    (host : String) : Prop :=
  ∃ text config, renderNginxConfig g.deployment g.runtime = some text
    ∧ Nginx.read text = some config
    ∧ ∃ location ∈ serverLocations config,
      (location.path = route.path ∨ location.path = route.path ++ "/")
      ∧ ∃ port : ℕ, location.pass = some ("http://" ++ host ++ ":" ++ toString port)
      ∧ ':' ∉ host.toList

/-- A service that bears the name by which the gateway finds another. -/
def NameTaken (d : Deployment) (runtime : RuntimeDeployment) : Prop :=
  ∃ route ∈ runtime.routes, ∃ service ∈ runtime.services,
    service.name = route.service ++ "-g-" ++ d.id.hex12

/-- The names that are torn down, those that are created and those that are routed to fit
together. -/
structure ProjectGenerations.NamesAgree (ps : ProjectGenerations docker project)
    (runtime : Option ProjectRuntime) : Prop where
  derived : ∃ expected, expectedResources project ps.deployments runtime = .ok expected
  same : ∀ expected, expectedResources project ps.deployments runtime = .ok expected →
    ∀ x, x ∈ expected.map ExpectedResource.resource ↔ (∃ g ∈ ps.generations, g.Created x)
      ∨ runtime.isSome = true ∧ x = ⟨.container, gatewayName project⟩
  distinct : ∀ expected, expectedResources project ps.deployments runtime = .ok expected →
    (expected.map ExpectedResource.resource).Nodup
  routed : ∀ g ∈ ps.generations, ∀ route ∈ g.runtime.routes, (∃ host, g.Upstream route host)
    ∧ ∀ host, g.Upstream route host → ∃ service ∈ g.runtime.services, service.name = route.service
      ∧ ∀ container, g.Aliased container host ↔ container = containerName g.deployment service

/-- No path of a route is another one with a slash behind it. -/
theorem RuntimeRoute.path_append_ne (a b : RuntimeRoute) : a.path ++ "/" ≠ b.path := by
  intro heq
  have hlast : b.path.toList.getLast? = some '/' := by
    rw [← heq, String.toList_append]
    exact List.getLast?_concat
  obtain ⟨cs, hcs⟩ := a.path_cons
  have hlength := congrArg (fun path : String ↦ path.toList.length) (heq.trans (path_eq_root hlast))
  simp [hcs] at hlength

theorem colon_notMem_upstream (d : Deployment) (service : RuntimeService) :
    ':' ∉ (service.name ++ "-g-" ++ d.id.hex12).toList := by
  have hname : ':' ∉ service.name.toList := by
    have h := service.name_valid
    unfold isServiceName at h
    split at h
    · rename_i hempty
      rw [hempty]
      exact List.not_mem_nil
    · rename_i c cs hcs
      simp only [Bool.and_eq_true, List.all_eq_true] at h
      rw [hcs, List.mem_cons, not_or]
      constructor
      · rintro rfl
        exact absurd h.1.1 (by decide)
      · intro hmem
        exact absurd (h.2 ':' hmem) (by decide)
  have hid : ':' ∉ d.id.hex12.toList := by
    rw [Uuid.hex12, String.toList_ofList]
    intro hmem
    obtain ⟨digit, -, hdigit⟩ := List.mem_map.mp (List.mem_of_mem_take hmem)
    have hne : ∀ n : Fin 16, Uuid.digitChar n ≠ ':' := by decide
    exact hne digit hdigit
  have hmark : ':' ∉ "-g-".toList := by decide
  simp only [String.toList_append, List.mem_append, not_or]
  exact ⟨⟨hname, hmark⟩, hid⟩

/-- The text before the first colon. -/
theorem append_colon_inj {a b c c' : String} (ha : ':' ∉ a.toList) (hb : ':' ∉ b.toList)
    (h : a ++ ":" ++ c = b ++ ":" ++ c') : a = b := by
  have hcolon (x y : String) (hx : ':' ∉ x.toList) :
      ((x ++ ":" ++ y).toList.takeWhile (· ≠ ':')) = x.toList := by
    have hchars : (x ++ ":" ++ y).toList = x.toList ++ ':' :: y.toList := by
      simp [String.toList_append]
    rw [hchars, List.takeWhile_append_of_pos fun c hc ↦ by
      rw [decide_eq_true_eq]
      rintro rfl
      exact hx hc]
    simp
  refine String.toList_injective ?_
  rw [← hcolon a c ha, ← hcolon b c' hb, h]

namespace StartedGeneration

variable (g : StartedGeneration docker)

theorem upstream_iff {route : RuntimeRoute} (hroute : route ∈ g.runtime.routes) {host : String} :
    g.Upstream route host ↔ host = route.service ++ "-g-" ++ g.deployment.id.hex12 := by
  obtain ⟨text, htext, hread⟩ := read_renderNginxConfig g.deployment g.runtime
  have hlocations := serverLocations_gatewayConfig g.deployment g.runtime
  constructor
  · rintro ⟨text', config, htext', hread', location, hlocation, hpath, port, hpass, hcolon⟩
    obtain rfl := Option.some.inj (htext.symm.trans htext')
    obtain rfl := Option.some.inj (hread.symm.trans hread')
    rw [hlocations, mem_gatewayLocations] at hlocation
    obtain ⟨route', hroute', service, hservice, hname, hlocation⟩ := hlocation
    have hsame : route'.path = route.path := by
      rcases mem_locationsOf.mp hlocation with rfl | ⟨hroot, rfl⟩
      · rcases hpath with hpath | hpath
        · unfold RuntimeRoute.prefixPath at hpath
          split at hpath
          · exact ‹route'.path = "/"›.trans hpath
          · exact absurd hpath (route'.path_append_ne route)
        · unfold RuntimeRoute.prefixPath at hpath
          split at hpath
          · exact absurd (hpath.symm.trans ‹route'.path = "/"›.symm) (route.path_append_ne route')
          · have hchars := congrArg String.toList hpath
            rw [String.toList_append, String.toList_append] at hchars
            exact String.toList_injective (List.append_cancel_right hchars)
      · rcases hpath with hpath | hpath
        · exact hpath
        · exact absurd hpath.symm (route.path_append_ne route')
    obtain rfl := List.inj_on_of_nodup_map g.runtime.paths_nodup hroute' hroute hsame
    have hurl : location.pass = some (upstreamUrl g.deployment service) := by
      rcases mem_locationsOf.mp hlocation with rfl | ⟨-, rfl⟩ <;> rfl
    have htexts := Option.some.inj (hpass.symm.trans hurl)
    rw [upstreamUrl, String.append_assoc, String.append_assoc, String.append_right_inj,
      ← String.append_assoc] at htexts
    rw [← hname]
    exact append_colon_inj hcolon (colon_notMem_upstream g.deployment service) htexts
  · rintro rfl
    obtain ⟨service, hservice, hname, -⟩ := RuntimeDeployment.exists_service hroute
    rw [← hname]
    refine ⟨text, _, htext, hread, ⟨false, route.prefixPath, some (upstreamUrl g.deployment service)⟩,
      ?_, ?_, service.internalPort, ?_, colon_notMem_upstream g.deployment service⟩
    · rw [hlocations, mem_gatewayLocations]
      exact ⟨route, hroute, service, hservice, hname, mem_locationsOf.mpr (.inl rfl)⟩
    · unfold RuntimeRoute.prefixPath
      split
      · exact .inl ‹route.path = "/"›.symm
      · exact .inr rfl
    · simp only [upstreamUrl, String.append_assoc]

/-- A host leads to one container, unless its name is taken. -/
theorem aliased_host {route : RuntimeRoute} (hroute : route ∈ g.runtime.routes) :
    (∃ service ∈ g.runtime.services, service.name = route.service ∧ ∀ container,
      g.Aliased container (route.service ++ "-g-" ++ g.deployment.id.hex12)
        ↔ container = containerName g.deployment service)
    ↔ ∀ service ∈ g.runtime.services,
      service.name ≠ route.service ++ "-g-" ++ g.deployment.id.hex12 := by
  constructor
  · rintro ⟨service, -, hname, halias⟩ other hother hsame
    have hcontainer := (halias (containerName g.deployment other)).mp
      (g.aliased_iff.mpr ⟨other, hother, rfl, .inl hsame.symm⟩)
    have hothername := containerName_injective g.deployment hcontainer
    rw [hname, hsame] at hothername
    have hlength := congrArg (fun name : String ↦ name.toList.length) hothername
    simp [String.toList_append, length_hex12] at hlength
  · intro hfree
    obtain ⟨service, hservice, hname, -⟩ := RuntimeDeployment.exists_service hroute
    refine ⟨service, hservice, hname, fun container ↦ ?_⟩
    rw [g.aliased_iff]
    constructor
    · rintro ⟨other, hother, rfl, htaken | hgateway⟩
      · exact absurd htaken.symm (hfree other hother)
      · rw [gatewayAlias, String.append_left_inj, String.append_left_inj] at hgateway
        rw [List.inj_on_of_nodup_map g.runtime.names_nodup hother hservice
          (hgateway.symm.trans hname.symm)]
    · rintro rfl
      exact ⟨service, hservice, rfl, .inr (by rw [gatewayAlias, hname])⟩

end StartedGeneration

/-! ## Agreement -/

/-- **The names of a project fit together** when no service bears the name by which the gateway
finds another one, and only then. -/
theorem ProjectGenerations.namesAgree_iff (ps : ProjectGenerations docker project)
    (runtime : Option ProjectRuntime) (hrow : ∀ row, runtime = some row → ps.Row row) :
    ps.NamesAgree runtime ↔ ∀ g ∈ ps.generations, ¬NameTaken g.deployment g.runtime := by
  have hexpected := expectedResources_eq hrow
  constructor
  · rintro hagree g hg ⟨route, hroute, service, hservice, hname⟩
    obtain ⟨⟨host, hhost⟩, hrouted⟩ := hagree.routed g hg route hroute
    have hleads := hrouted host hhost
    obtain rfl := (g.upstream_iff hroute).mp hhost
    exact (g.aliased_host hroute).mp hleads service hservice hname
  · intro hfree
    refine ⟨⟨_, hexpected⟩, fun expected hok x ↦ ?_, fun expected hok ↦ ?_, fun g hg route hroute ↦ ?_⟩
    · obtain rfl := Except.ok.inj (hexpected.symm.trans hok)
      rw [allResources, List.map_append, List.mem_append, or_comm, ps.mem_resources]
      refine or_congr (exists_congr fun g ↦ and_congr_right fun _ ↦ g.created_iff.symm) ?_
      cases runtime <;> simp [gatewayResource, ExpectedResource.resource]
    · obtain rfl := Except.ok.inj (hexpected.symm.trans hok)
      exact nodup_allResources ps runtime
    · refine ⟨⟨_, (g.upstream_iff hroute).mpr rfl⟩, fun host hhost ↦ ?_⟩
      obtain rfl := (g.upstream_iff hroute).mp hhost
      refine (g.aliased_host hroute).mpr fun service hservice hname ↦ ?_
      exact hfree g hg ⟨route, hroute, service, hservice, hname⟩

/-! ## A project with one deployment -/

/-- A deployment with the services that are named, the first of which is reached by the route. -/
def sampleDeployment (names : List String) : Deployment where
  id := .ofNat 0x40008000000000000002
  projectId := .ofNat 0x40008000000000000001
  sourceType := .mainHead
  requestedCommitSha := none
  resolvedCommitSha := "0123456789012345678901234567890123456789"
  configVersion := 1
  configSnapshot :=
    .obj [("services", .arr (names.map fun name ↦
        .obj [("name", .str name),
          ("build", .obj [("context", .str "."), ("dockerfile", .str "Dockerfile")]),
          ("internalPort", .int 8000), ("healthPath", .str "/health")])),
      ("routes", .arr [.obj [("path", .str "/"), ("service", .str (names.headD ""))]])]
  status := .starting
  createdAt := 0
  updatedAt := 0

def sampleDocker : DockerRuntime where
  probeHost := "127.0.0.1"
  probes := 1
  readDigits digits := .ok (if digits = "8000" then some 8000 else none)

/-- Nothing is there yet, and every step succeeds. -/
def smoothStart : Handler Unit Unit CandidateOp CandidateOp.Ans Exc
  | (), (), .host (.run _ false _) => ((), .ok { returncode := 1, stdout := "" }, ())
  | (), (), .host (.run _ true _) => ((), .ok { returncode := 0, stdout := "127.0.0.1:8000\n" }, ())
  | (), (), .host .timeLeft => ((), .ok true, ())
  | (), (), .host (.http _) => ((), .ok { status := 200 }, ())
  | (), (), .source (.resolveContext _ _) => ((), .ok ⟨"/src", true, true⟩, ())
  | (), (), .source (.resolveDockerfile _ _ _) => ((), .ok ⟨"/src/Dockerfile", true, true⟩, ())
  | (), (), .source (.resolveWorkspace _) => ((), .ok (), ())
  | (), (), .stage _ _ _ => ((), .ok (), ())
  | (), (), _ => ((), .error .other, ())

theorem exists_startedGeneration {d : Deployment} {runtime : RuntimeDeployment}
    {candidate : CandidateGeneration} (haccepted : RuntimeDeployment.fromDeployment d = .ok runtime)
    (h : (exec smoothStart (sampleDocker.startCandidate d runtime) () ()).2.1 = .ok candidate) :
    ∃ g : StartedGeneration sampleDocker, g.deployment = d ∧ g.runtime = runtime := by
  let run := exec smoothStart (sampleDocker.startCandidate d runtime) () ()
  have hends : Ends (fun _ _ _ _ ↦ True) (sampleDocker.startCandidate d runtime) () run.1 run.2.1
      run.2.2 := exec_ends (h := smoothStart) (fun _ _ _ ↦ trivial) _ () ()
  change run.2.1 = .ok candidate at h
  rw [h] at hends
  exact ⟨⟨d, runtime, haccepted, candidate, _, hends⟩, rfl, rfl⟩

/-- The generations of a project with one deployment. -/
def singleGeneration (g : StartedGeneration docker) :
    ProjectGenerations docker g.deployment.projectId where
  generations := [g]
  project_eq := by simp
  hex12_nodup := by simp

/-- A project whose names fit together. -/
theorem namesAgree_sample : ∃ g : StartedGeneration sampleDocker,
    g.deployment = sampleDeployment ["api", "worker"] ∧ (singleGeneration g).NamesAgree none := by
  obtain ⟨runtime, candidate, haccepted, hnames, hroutes, hstarted⟩ : ∃ runtime candidate,
      RuntimeDeployment.fromDeployment (sampleDeployment ["api", "worker"]) = .ok runtime
        ∧ runtime.services.map RuntimeService.name = ["api", "worker"]
        ∧ runtime.routes.map RuntimeRoute.service = ["api"]
        ∧ (exec smoothStart (sampleDocker.startCandidate (sampleDeployment ["api", "worker"]) runtime)
          () ()).2.1 = .ok candidate := ⟨_, _, rfl, rfl, rfl, rfl⟩
  obtain ⟨g, hd, rfl⟩ := exists_startedGeneration haccepted hstarted
  refine ⟨g, hd, ((singleGeneration g).namesAgree_iff none nofun).mpr ?_⟩
  rintro _ hg ⟨route, hroute, service, hservice, hname⟩
  obtain rfl := List.mem_singleton.mp hg
  have hroute := List.mem_map_of_mem (f := RuntimeRoute.service) hroute
  have hservice := List.mem_map_of_mem (f := RuntimeService.name) hservice
  rw [hroutes] at hroute
  rw [hnames, hname, List.mem_singleton.mp hroute, hd] at hservice
  exact absurd hservice (by decide)

/-- A project in which the second service bears the name by which the gateway finds the first. -/
theorem not_namesAgree_sample : ∃ g : StartedGeneration sampleDocker,
    g.deployment = sampleDeployment ["api", "api-g-000000000000"]
      ∧ ¬(singleGeneration g).NamesAgree none := by
  obtain ⟨runtime, candidate, haccepted, hnames, hroutes, hstarted⟩ : ∃ runtime candidate,
      RuntimeDeployment.fromDeployment (sampleDeployment ["api", "api-g-000000000000"])
          = .ok runtime
        ∧ "api-g-000000000000" ∈ runtime.services.map RuntimeService.name
        ∧ "api" ∈ runtime.routes.map RuntimeRoute.service
        ∧ (exec smoothStart (sampleDocker.startCandidate
          (sampleDeployment ["api", "api-g-000000000000"]) runtime) () ()).2.1 = .ok candidate :=
    ⟨_, _, rfl, by decide, by decide, rfl⟩
  obtain ⟨g, hd, rfl⟩ := exists_startedGeneration haccepted hstarted
  obtain ⟨service, hservice, hname⟩ := List.mem_map.mp hnames
  obtain ⟨route, hroute, hroutename⟩ := List.mem_map.mp hroutes
  refine ⟨g, hd, fun hagree ↦ ?_⟩
  have hrouted := hagree.routed g (List.mem_singleton_self g) route hroute
  have hleads := hrouted.2 _ ((g.upstream_iff hroute).mpr rfl)
  refine (g.aliased_host hroute).mp hleads service hservice ?_
  rw [hname, hroutename, hd]
  decide

end Heimdall
