import Heimdall.Effect.Pool
import Heimdall.ProjectDatabase.Service
import Heimdall.Sessions

/-!
# Requests for deployments

`DeploymentService.request` reads the project, looks up the commits of its repository over the network
and creates the deployment, in separate steps. What it creates has the version and the configuration
of the project as it was read: the two come from one row, and a configuration is stored under one
version for good, so whatever settings are stored meanwhile, a deployment and the version it names
agree (`ConfigHistory.reachable_snapshots`).
-/

namespace Heimdall

open Effect

/-! ## The service -/

structure DeploymentSourceInput where
  type : DeploymentSource
  commitSha : Option String := none
deriving DecidableEq

/-- `DeploymentSourceInput.validate_source` -/
def DeploymentSourceInput.isValid (s : DeploymentSourceInput) : Bool :=
  match s.type with
  | .mainHead => s.commitSha.isNone
  | .mainCommit => s.commitSha.any isCommitSha

/-- What a request does outside the program's memory. -/
inductive RequestOp where
  /-- `get` of the project repository. -/
  | project (p : Uuid)
  /-- `get_for_project` of the repository of project databases. -/
  | projectDatabase (p : Uuid)
  /-- The hashes of the recent commits on the main branch, latest first. -/
  | recentCommits (repositoryUrl : String)
  | create (request : DeploymentDb.DeploymentRequest)

abbrev RequestOp.Ans : RequestOp → Type
  | .project _ => Project
  | .projectDatabase _ => Option ProjectDatabaseResource
  | .recentCommits _ => List String
  | .create _ => Deployment

/-- A program of the deployment API. -/
abbrev Request (α : Type) : Type := Prog RequestOp RequestOp.Ans Exc α

namespace Request

def raise {α : Type} (x : Exc) : Request α := Prog.raise x

def op (o : RequestOp) : Request o.Ans := Prog.op o

/-- `ProjectService.get` -/
def project (p : Uuid) : Request Project :=
  (op (.project p)).tryCatch fun
    | .projectNotFound => raise (.appError 404 "PROJECT_NOT_FOUND" "Project was not found")
    | x => raise x

/-- `ProjectService.ready` -/
def ready (p : Uuid) : Request Project := do
  let project ← project p
  .ofExcept project.ensureReady

/-- `ProjectService.commits` -/
def commits (p : Uuid) : Request (List String) := do
  let project ← project p
  -- the message is the text of the exception
  (op (.recentCommits project.repositoryUrl)).tryCatch fun
    | .gitAccess => raise (.appError 503 "REPOSITORY_UNAVAILABLE" "")
    | x => raise x

end Request

/-- What a snapshot says about the managed database. -/
def ProjectDatabaseEndpoint.metadata (e : ProjectDatabaseEndpoint) (r : ProjectDatabaseResource)
    (reference : String) (version : ℕ) (fingerprint : String) : Json.Value :=
  .obj [("resourceId", .str r.id.str), ("databaseName", .str r.databaseName),
    ("username", .str r.roleName), ("schemaName", .str r.schemaName), ("host", .str e.runtimeHost),
    ("port", .int e.runtimePort), ("credentialReference", .str reference),
    ("credentialVersion", .int version), ("credentialFingerprint", .str fingerprint)]

/-- `ProjectDatabaseService.deployment_metadata` -/
def ProjectDatabaseEndpoint.deploymentMetadata (e : ProjectDatabaseEndpoint) (project : Project) :
    Request (Option Json.Value) :=
  if (connectedServices (project.deploymentConfig.getD (.obj []))).isEmpty then pure none
  else do
    let active ← Request.op (.projectDatabase project.id)
    if active.all (·.status ≠ .active) then
      Request.raise (.appError 409 "PROJECT_DATABASE_NOT_ACTIVE"
        "Provision the project database before deployment")
    else do
      let resource ← Request.op (.projectDatabase project.id)
      match resource with
      | some r =>
        match r.credentialReference, r.credentialVersion, r.credentialFingerprint with
        | some reference, some version, some fingerprint =>
          pure (some (e.metadata r reference version fingerprint))
        | _, _, _ => credentialNotReady
      | none => credentialNotReady
where
  credentialNotReady : Request (Option Json.Value) :=
    Request.raise (.appError 409 "PROJECT_DATABASE_CREDENTIAL_NOT_READY"
      "Project database credential metadata is incomplete")

/-- `DeploymentService`, with where the managed databases are, if they are configured. -/
structure DeploymentService where
  projectDatabases : Option ProjectDatabaseEndpoint

namespace DeploymentService

/-- The metadata of the managed database that goes into a snapshot. -/
def databaseMetadata (service : DeploymentService) (project : Project) :
    Request (Option Json.Value) :=
  match service.projectDatabases with
  | some endpoint => endpoint.deploymentMetadata project
  | none =>
    if (connectedServices (project.deploymentConfig.getD (.obj []))).isEmpty then pure none
    else Request.raise (.appError 503 "PROJECT_DATABASE_UNAVAILABLE"
      "Managed project PostgreSQL is not configured")

/-- The commit that is deployed. -/
def resolveCommit (source : DeploymentSourceInput) : List String → Request String
  | [] => Request.raise (.appError 422 "MAIN_HAS_NO_COMMITS" "The main branch has no commits")
  | head :: commits =>
    match source.type with
    | .mainHead => pure head
    | .mainCommit =>
      match (head :: commits).find? fun sha ↦ some sha = source.commitSha with
      | some sha => pure sha
      | none => Request.raise (.appError 422 "COMMIT_NOT_IN_RECENT_MAIN"
          "Select a commit from the recent main commit list")

def request (service : DeploymentService) (p : Uuid) (source : DeploymentSourceInput) :
    Request Deployment := do
  let project ← Request.ready p
  let metadata ← service.databaseMetadata project
  let commits ← Request.commits p
  let resolved ← resolveCommit source commits
  (Request.op (.create {
    projectId := project.id
    sourceType := source.type
    requestedCommitSha := source.commitSha
    resolvedCommitSha := resolved
    configVersion := project.configVersion
    configSnapshot := configSnapshot (project.deploymentConfig.getD (.obj [])) metadata })).tryCatch
    fun
    | .activeDeployment => Request.raise
        (.appError 409 "ACTIVE_DEPLOYMENT_EXISTS" "Wait for the active deployment to finish")
    | .deploymentProjectDeleting => Request.raise
        (.appError 409 "PROJECT_DELETING" "Project deletion is in progress")
    | x => Request.raise x

end DeploymentService

/-! ## Histories -/

/-- The database with the configurations that were stored: of which project, under which version. -/
structure ConfigHistory extends DatabaseHistory where
  stored : List (Uuid × ℕ × Json.Value)

/-- A snapshot without the metadata of the managed database. -/
def configPart : Json.Value → Json.Value
  | .obj fields => .obj (fields.filter (·.1 ≠ "managedDatabase"))
  | snapshot => snapshot

theorem configPart_configSnapshot (services : List ResolvedService) (routes : List RouteConfig)
    (metadata : Option Json.Value) :
    configPart (configSnapshot (deploymentConfig services routes) metadata)
      = deploymentConfig services routes := by
  cases metadata with
  | none => rfl
  | some metadata => rfl

namespace ConfigHistory

/-- What a transaction stores. -/
def stores : DatabaseCall → List (Uuid × ℕ × Json.Value)
  | .updateSettings p expectedVersion config _ => [(p, expectedVersion + 1, config)]
  | _ => []

/-- A transaction commits, whatever statuses of projects it has read. -/
structure Transaction (call : DatabaseCall) (h h' : ConfigHistory) : Prop where
  commit : ∃ status, DatabaseCommit status call h.toDatabaseHistory h'.toDatabaseHistory
  stored : h'.stored = stores call ++ h.stored

/-- The configuration was stored under the version. -/
def Stored (h : ConfigHistory) (p : Uuid) (version : ℕ) (config : Json.Value) : Prop :=
  (p, version, config) ∈ h.stored

/-- The snapshot is a copy of a configuration of the project that was stored under the version, with
the metadata of a managed database or not. -/
def Faithful (h : ConfigHistory) (p : Uuid) (version : ℕ) (snapshot : Json.Value) : Prop :=
  ∃ config metadata, h.Stored p version config ∧ snapshot = configSnapshot config metadata

/-- What holds of every history. -/
structure Good (h : ConfigHistory) : Prop where
  consistent : ∀ status, (h.db.deploymentDb status).Consistent
  created : ∀ p version config, h.Stored p version config → p ∈ h.created
  there : ∀ p row, h.db.projects.lookup p = some row → p ∈ h.created
  /-- The configuration of a project is the one stored under its version. -/
  current : ∀ p row config, h.db.projects.lookup p = some row → row.deploymentConfig = some config →
    h.Stored p row.configVersion config
  /-- No later version has been stored. -/
  latest : ∀ p row version config, h.db.projects.lookup p = some row → h.Stored p version config →
    version ≤ row.configVersion
  unique : ∀ p version config config', h.Stored p version config → h.Stored p version config' →
    config = config'
  shape : ∀ p version config, h.Stored p version config →
    ∃ services routes, config = deploymentConfig services routes
  snapshots : ∀ d row, h.db.deployments.lookup d = some row →
    h.Faithful row.projectId row.configVersion row.configSnapshot

/-- What may be committed: settings are documents of services and routes, and a deployment has a
copy of what was stored under its version. -/
def Sound (h : ConfigHistory) : DatabaseCall → Prop
  | .updateSettings _ _ config _ => ∃ services routes, config = deploymentConfig services routes
  | .deployment (.create _ request) _ =>
    h.Faithful request.projectId request.configVersion request.configSnapshot
  | _ => True

variable {h h' : ConfigHistory} {call : DatabaseCall} {p : Uuid} {version : ℕ} {config : Json.Value}

theorem Transaction.stored_mono (ht : Transaction call h h') (hs : h.Stored p version config) :
    h'.Stored p version config := by
  rw [Stored, ht.stored]
  exact List.mem_append_right _ hs

/-- What has been stored was stored before, or is stored under the version the call expects to come
after. -/
theorem Transaction.stored_cases (ht : Transaction call h h') (hs : h'.Stored p version config) :
    h.Stored p version config ∨ ∃ expectedVersion secrets, version = expectedVersion + 1
      ∧ call = .updateSettings p expectedVersion config secrets := by
  rw [Stored, ht.stored, List.mem_append] at hs
  refine hs.symm.imp id fun hnew ↦ ?_
  cases call with
  | updateSettings q expectedVersion config' secrets =>
    obtain ⟨rfl, rfl, rfl⟩ : p = q ∧ version = expectedVersion + 1 ∧ config = config' := by
      simpa [stores] using hnew
    exact ⟨expectedVersion, secrets, rfl, rfl⟩
  | _ => cases hnew

theorem Transaction.created_mono (ht : Transaction call h h') (hp : p ∈ h.created) :
    p ∈ h'.created := by
  obtain ⟨status, hc⟩ := ht.commit
  rw [hc.created]
  exact List.mem_append_right _ hp

/-- Settings that have been stored are those of the project. -/
theorem Transaction.settings {expectedVersion : ℕ} {secrets : List ProjectEnvironmentSecret}
    (ht : Transaction (.updateSettings p expectedVersion config secrets) h h') :
    ∃ old row, h.db.projects.lookup p = some old ∧ h'.db.projects.lookup p = some row
      ∧ ProjectDb.SettingsRow old row expectedVersion config := by
  obtain ⟨status, hc⟩ := ht.commit
  obtain ⟨now, hcommits⟩ := hc.commits
  generalize hdb : h'.db = db' at hcommits
  cases hcommits with
  | updateSettings hold hrow => exact ⟨_, _, hold, AList.lookup_insert _, hrow⟩

theorem Transaction.good (hg : h.Good) (ht : Transaction call h h') (hsound : h.Sound call) :
    h'.Good := by
  obtain ⟨status, hc⟩ := ht.commit
  obtain ⟨now, hcommits⟩ := hc.commits
  have hversion {p : Uuid} {version : ℕ} {config config' : Json.Value} {expectedVersion : ℕ}
      {secrets : List ProjectEnvironmentSecret}
      (hcall : call = .updateSettings p expectedVersion config' secrets)
      (hs : h.Stored p version config) : version ≤ expectedVersion := by
    obtain ⟨old, row, hold, -, hrow⟩ := Transaction.settings (hcall ▸ ht)
    exact hrow.expected ▸ hg.latest p old version config hold hs
  refine ⟨fun status ↦ hcommits.consistent (hg.consistent status), ?_, ?_, ?_, ?_, ?_, ?_, ?_⟩
  · intro p version config hs
    rcases ht.stored_cases hs with hs | ⟨expectedVersion, secrets, -, rfl⟩
    · exact ht.created_mono (hg.created p version config hs)
    · obtain ⟨old, row, hold, -⟩ := ht.settings
      exact ht.created_mono (hg.there p old hold)
  · intro p row hrow
    rcases hcommits.configs hrow with ⟨old, hold, -⟩ | ⟨name, url, rfl, -⟩ | ⟨old, _, _, _, -, hold, -⟩
    · exact ht.created_mono (hg.there p old hold)
    · rw [hc.created]
      exact List.mem_append_left _ List.mem_cons_self
    · exact ht.created_mono (hg.there p old hold)
  · intro p row config hrow hconfig
    rcases hcommits.configs hrow with ⟨old, hold, hv, hsame, -⟩ | ⟨name, url, rfl, hnone⟩
      | ⟨old, expectedVersion, config', secrets, rfl, hold, hnew⟩
    · exact hv ▸ ht.stored_mono (hg.current p old config hold (hsame ▸ hconfig))
    · cases hnone.symm.trans hconfig
    · obtain rfl := Option.some.inj (hnew.config.symm.trans hconfig)
      rw [Stored, ht.stored, hnew.version, hnew.expected]
      exact List.mem_append_left _ List.mem_cons_self
  · intro p row version config hrow hs
    rcases hcommits.configs hrow with ⟨old, hold, hv, -, hcall⟩ | ⟨name, url, rfl, -⟩
      | ⟨old, expectedVersion, config', secrets, rfl, hold, hnew⟩
    · rcases ht.stored_cases hs with hs | ⟨expectedVersion, secrets, -, heq⟩
      · exact hv ▸ hg.latest p old version config hold hs
      · exact absurd heq (hcall _ _ _)
    · rcases ht.stored_cases hs with hs | ⟨_, _, -, heq⟩
      · exact absurd (hg.created p version config hs) (hc.fresh p List.mem_cons_self)
      · cases heq
    · rcases ht.stored_cases hs with hs | ⟨_, _, rfl, heq⟩
      · exact (hg.latest p old version config hold hs).trans (hnew.version ▸ Nat.le_succ _)
      · cases heq
        rw [hnew.version, hnew.expected]
  · intro p version config config' hs hs'
    rcases ht.stored_cases hs with hs | ⟨expectedVersion, secrets, rfl, hcall⟩
      <;> rcases ht.stored_cases hs' with hs' | ⟨expectedVersion', secrets', hv, hcall'⟩
    · exact hg.unique p version config config' hs hs'
    · have hle := hversion hcall' hs
      omega
    · exact absurd (hversion hcall hs') (Nat.not_succ_le_self _)
    · exact (DatabaseCall.updateSettings.inj (hcall.symm.trans hcall')).2.2.1
  · intro p version config hs
    rcases ht.stored_cases hs with hs | ⟨expectedVersion, secrets, rfl, rfl⟩
    · exact hg.shape p version config hs
    · exact hsound
  · intro d row hrow
    rcases hcommits.origin (hg.consistent status) hrow with
      ⟨old, hold, hfrozen⟩ | ⟨request, eventId, rfl, hproject, hversion, hsnapshot⟩
    · obtain ⟨config, metadata, hs, hcopy⟩ := hg.snapshots d old hold
      rw [hfrozen.project, hfrozen.version, hfrozen.snapshot]
      exact ⟨config, metadata, ht.stored_mono hs, hcopy⟩
    · obtain ⟨config, metadata, hs, hcopy⟩ := hsound
      rw [hproject, hversion, hsnapshot]
      exact ⟨config, metadata, ht.stored_mono hs, hcopy⟩

/-! ## Requests side by side -/

/-- What comes of an operation of a request. -/
inductive React (h : ConfigHistory) : (o : RequestOp) → Except Exc o.Ans → ConfigHistory → Prop
  | raise (o : RequestOp) (x : Exc) : React h o (.error x) h
  | project {p : Uuid} {project : Project} (hget : h.db.toProjectDb.get p = .ok project) :
    React h (.project p) (.ok project) h
  | projectDatabase (p : Uuid) (r : Option ProjectDatabaseResource) :
    React h (.projectDatabase p) (.ok r) h
  | recentCommits (repositoryUrl : String) (commits : List String) :
    React h (.recentCommits repositoryUrl) (.ok commits) h
  | create {request : DeploymentDb.DeploymentRequest} {id : Uuid} {eventId : ℕ}
    {h' : ConfigHistory} (ht : Transaction (.deployment (.create id request) eventId) h h')
    {row : Deployment} (hrow : h'.db.deployments.lookup id = some row) :
    React h (.create request) (.ok row) h'
  /-- The transaction has been committed, and its answer is lost. -/
  | lost {request : DeploymentDb.DeploymentRequest} {id : Uuid} {eventId : ℕ} {h' : ConfigHistory}
    (ht : Transaction (.deployment (.create id request) eventId) h h') (x : Exc) :
    React h (.create request) (.error x) h'

/-- A transaction of somebody else: settings are documents of services and routes, and only requests
create deployments. -/
def Foreign : DatabaseCall → Prop
  | .updateSettings _ _ config _ => ∃ services routes, config = deploymentConfig services routes
  | .deployment (.create _ _) _ => False
  | _ => True

/-- Requests under names, beside whoever else uses the database. -/
def rules : Pool.Rules ℕ ConfigHistory RequestOp RequestOp.Ans Exc Deployment where
  step _ := React
  spawn _ program := ∃ (service : DeploymentService) (p : Uuid) (source : DeploymentSourceInput),
    program = service.request p source
  die _ h h' := h' = h
  other h h' := ∃ call, Foreign call ∧ Transaction call h h'

/-- What was stored stays stored. -/
def Rely (h h' : ConfigHistory) : Prop :=
  ∀ p version config, h.Stored p version config → h'.Stored p version config

/-- A request creates copies of what was stored. -/
def Guar (h : ConfigHistory) : (o : RequestOp) → Except Exc o.Ans → ConfigHistory → Prop
  | .create request, _, _ =>
    h.Faithful request.projectId request.configVersion request.configSnapshot
  | _, _, _ => True

def proof : Pool.Proof ℕ ConfigHistory RequestOp RequestOp.Ans Exc where
  inv := Good
  rely _ := Rely
  guar _ := Guar
  idle _ _ := True

/-- The setting of a request. -/
abbrev setting (i : ℕ) : Setting ConfigHistory RequestOp RequestOp.Ans Exc := proof.setting rules i

theorem Transaction.rely (ht : Transaction call h h') : Rely h h' :=
  fun _ _ _ hs ↦ ht.stored_mono hs

theorem React.rely {o : RequestOp} {r : Except Exc o.Ans} (hr : React h o r h') : Rely h h' := by
  cases hr with
  | create ht => exact ht.rely
  | lost ht => exact ht.rely
  | _ => exact fun _ _ _ hs ↦ hs

theorem React.good {o : RequestOp} {r : Except Exc o.Ans} (hg : h.Good) (hr : React h o r h')
    (hguar : Guar h o r h') : h'.Good := by
  cases hr with
  | create ht => exact ht.good hg hguar
  | lost ht => exact ht.good hg hguar
  | _ => exact hg

theorem Foreign.sound (hf : Foreign call) (h : ConfigHistory) : h.Sound call := by
  cases call with
  | updateSettings => exact hf
  | deployment call eventId =>
    cases call with
    | create id request => exact hf.elim
    | _ => trivial
  | _ => trivial

/-- The operation creates nothing. -/
def Reads : RequestOp → Prop
  | .create _ => False
  | _ => True

theorem Reads.guar {o : RequestOp} (ho : Reads o) (h : ConfigHistory) (r : Except Exc o.Ans)
    (h' : ConfigHistory) : Guar h o r h' := by
  cases o with
  | create request => exact ho.elim
  | _ => trivial

/-- The project was read with this configuration. -/
def Read (project : Project) (config : Json.Value) (h : ConfigHistory) : Prop :=
  project.deploymentConfig = some config ∧ h.Stored project.id project.configVersion config

theorem Read.mono {project : Project} (hr : Read project config h) (hrely : Rely h h') :
    Read project config h' := ⟨hr.1, hrely _ _ _ hr.2⟩

theorem preserves_read {i : ℕ} {project : Project} {α : Type} {program : Request α}
    (hp : program.Uses Reads) : Preserves (setting i) (Read project config) program := by
  refine .of_uses (hp.mono fun o ho s s₁ r s₂ hs hrely hstep ↦ ⟨ho.guar s₁ r s₂, ?_⟩)
  exact (hs.mono hrely.2).mono hstep.rely

section Programs

variable {i : ℕ}

theorem project_uses : (Request.project p).Uses Reads := by
  refine (Prog.uses_op.mpr trivial).tryCatch fun x ↦ ?_
  split <;> trivial

theorem commits_uses : (Request.commits p).Uses Reads := by
  refine project_uses.bind fun project ↦ (Prog.uses_op.mpr trivial).tryCatch fun x ↦ ?_
  split <;> trivial

theorem resolveCommit_uses (source : DeploymentSourceInput) (commits : List String) :
    (DeploymentService.resolveCommit source commits).Uses Reads := by
  unfold DeploymentService.resolveCommit
  split
  · trivial
  split
  · trivial
  split <;> trivial

theorem databaseMetadata_uses (service : DeploymentService) (project : Project) :
    (service.databaseMetadata project).Uses Reads := by
  unfold DeploymentService.databaseMetadata
  split
  · unfold ProjectDatabaseEndpoint.deploymentMetadata
    split
    · trivial
    refine .bind (Prog.uses_op.mpr trivial) fun active ↦ ?_
    split
    · trivial
    refine .bind (Prog.uses_op.mpr trivial) fun resource ↦ ?_
    split
    · split <;> trivial
    · trivial
  · split <;> trivial

/-- A project that is ready has a configuration, which was stored under its version. -/
theorem ready_wp (s : ConfigHistory) : wp (setting i) (Request.ready p)
    (fun r s' ↦ ∀ project, r = .ok project → ∃ config, Read project config s') s := by
  have hread : ∀ s project s', React s (.project p) (.ok project) s' → s.Good →
      ∀ config, project.deploymentConfig = some config → Read project config s' := by
    intro s project s' hr hg config hconfig
    cases hr with
    | project hget =>
      unfold ProjectDb.get at hget
      split at hget
      · next row hrow =>
        obtain rfl := Except.ok.inj hget
        exact ⟨hconfig, hg.current p row config hrow hconfig⟩
      · cases hget
  unfold Request.ready Request.project Request.op
  rw [wp_bind, wp_tryCatch, wp_op]
  intro s₁ hrely r s₂ hstep
  refine ⟨Reads.guar (by trivial) s₁ r s₂, ?_⟩
  cases r with
  | error x =>
    rw [orElse_error]
    split <;> exact fun _ heq ↦ (nomatch heq)
  | ok project =>
    rw [orElse_ok, andThen_ok, wp_ofExcept]
    intro project' heq
    obtain ⟨rfl, -, hsome⟩ := Project.ensureReady_ok heq
    obtain ⟨config, hconfig⟩ := Option.isSome_iff_exists.mp hsome
    exact ⟨config, hread s₁ project' s₂ hstep hrely.1 config hconfig⟩

/-- A request may create a copy of the configuration as it was read, whatever has happened since. -/
theorem create_preserves {request : DeploymentDb.DeploymentRequest} {project : Project}
    (metadata : Option Json.Value) (hproject : request.projectId = project.id)
    (hversion : request.configVersion = project.configVersion) (hsnapshot : request.configSnapshot
      = configSnapshot (project.deploymentConfig.getD (.obj [])) metadata) :
    Preserves (setting i) (Read project config) (Request.op (.create request)) := by
  refine .op fun s s₁ r s₂ hs hrely hstep ↦ ?_
  have hread := hs.mono hrely.2
  refine ⟨⟨config, metadata, ?_, ?_⟩, hread.mono hstep.rely⟩
  · rw [hproject, hversion]
    exact hread.2
  · rw [hsnapshot, hread.1, Option.getD_some]

theorem request_wp (service : DeploymentService) (source : DeploymentSourceInput)
    (s : ConfigHistory) : wp (setting i) (service.request p source) (fun _ _ ↦ True) s := by
  unfold DeploymentService.request
  rw [wp_bind]
  refine wp_mono (ready_wp s) fun r s' hready ↦ ?_
  cases r with
  | error x => trivial
  | ok project =>
    obtain ⟨config, hread⟩ := hready project rfl
    refine (?_ : Preserves (setting i) (Read project config) _).apply hread fun _ _ _ ↦ trivial
    refine (preserves_read (databaseMetadata_uses service project)).bind fun metadata ↦
      (preserves_read commits_uses).bind fun commits ↦
      (preserves_read (resolveCommit_uses source commits)).bind fun resolved ↦
      (create_preserves metadata rfl rfl rfl).tryCatch fun x ↦ ?_
    split <;> exact .raise _

end Programs

/-- **Each request is verified on its own.** -/
theorem valid : proof.Valid rules where
  refl _ _ _ _ _ hs := hs
  trans _ _ _ _ h₁ h₂ p version config hs := h₂ p version config (h₁ p version config hs)
  idle _ _ _ _ _ := trivial
  spawn i program s hp _ _ := by
    obtain ⟨service, p, source, rfl⟩ := hp
    exact request_wp service source s
  run i s o r s' hg hstep hguar := ⟨hstep.good hg hguar, fun _ _ ↦ hstep.rely⟩
  die i s s' hg hdie := by
    obtain rfl : s' = s := hdie
    exact ⟨hg, trivial, fun _ _ _ _ _ hs ↦ hs⟩
  other s s' hg hother := by
    obtain ⟨call, hforeign, ht⟩ := hother
    exact ⟨ht.good hg (hforeign.sound s), fun _ ↦ ht.rely⟩

def start : ConfigHistory := ⟨.start, []⟩

theorem Good.start : start.Good where
  consistent status := {
    ids := fun d row hrow ↦ (nomatch hrow)
    exists_iff := fun d ↦ ⟨fun ⟨_, hrow⟩ ↦ (nomatch hrow), fun ⟨_, hjob⟩ ↦ (nomatch hjob)⟩
    agree := fun d row job hrow ↦ (nomatch hrow)
    oneActive := fun d e a b ha ↦ (nomatch ha) }
  created p version config hs := nomatch hs
  there p row hrow := nomatch hrow
  current p row config hrow := nomatch hrow
  latest p row version config hrow := nomatch hrow
  unique p version config config' hs := nomatch hs
  shape p version config hs := nomatch hs
  snapshots d row hrow := nomatch hrow

/-- The pools that are reached. -/
def Reachable (pool : Pool ℕ ConfigHistory RequestOp RequestOp.Ans Exc Deployment) : Prop :=
  Relation.ReflTransGen (Pool.Step rules) ⟨start, []⟩ pool

theorem Reachable.good {pool : Pool ℕ ConfigHistory RequestOp RequestOp.Ans Exc Deployment}
    (hr : Reachable pool) : pool.state.Good :=
  ((Pool.Sound.initial Good.start fun _ ↦ trivial).steps valid hr).inv

theorem Good.configPart_eq (hg : h.Good) {d : Uuid} {row : Deployment}
    (hrow : h.db.deployments.lookup d = some row) (hs : h.Stored row.projectId row.configVersion config) :
    configPart row.configSnapshot = config := by
  obtain ⟨config', metadata, hs', hcopy⟩ := hg.snapshots d row hrow
  obtain rfl := hg.unique _ _ _ _ hs hs'
  obtain ⟨services, routes, rfl⟩ := hg.shape _ _ _ hs
  rw [hcopy, configPart_configSnapshot]

/-- **Snapshots are of the version they name.** Whatever requests for deployments and stored settings
run side by side: one configuration was stored under the version of a deployment, and its snapshot is
this configuration, apart from the metadata of the managed database; deployments of one project with
one version have the same configuration. -/
theorem reachable_snapshots {pool : Pool ℕ ConfigHistory RequestOp RequestOp.Ans Exc Deployment}
    (hr : Reachable pool) :
    (∀ d row, pool.state.db.deployments.lookup d = some row →
      ∃ config, pool.state.Stored row.projectId row.configVersion config
        ∧ (∀ config', pool.state.Stored row.projectId row.configVersion config' → config' = config)
        ∧ (∃ metadata, row.configSnapshot = configSnapshot config metadata)
        ∧ configPart row.configSnapshot = config)
    ∧ ∀ d e row row', pool.state.db.deployments.lookup d = some row →
      pool.state.db.deployments.lookup e = some row' → row.projectId = row'.projectId →
      row.configVersion = row'.configVersion →
      configPart row.configSnapshot = configPart row'.configSnapshot := by
  have hg := hr.good
  refine ⟨fun d row hrow ↦ ?_, fun d e row row' hrow hrow' hproject hversion ↦ ?_⟩
  · obtain ⟨config, metadata, hs, hcopy⟩ := hg.snapshots d row hrow
    exact ⟨config, hs, fun config' hs' ↦ hg.unique _ _ _ _ hs' hs, ⟨metadata, hcopy⟩,
      hg.configPart_eq hrow hs⟩
  · obtain ⟨config, -, hs, -⟩ := hg.snapshots d row hrow
    rw [hg.configPart_eq hrow hs, hg.configPart_eq hrow' (hproject ▸ hversion ▸ hs)]

/-! ## A sample run -/

/-- Settings have been stored for a new project. -/
def sampleConfigured : ConfigHistory :=
  ⟨sampleProject.after (.updateSettings (.ofNat 1) 0 (deploymentConfig [] []) []) id,
    [(.ofNat 1, 1, deploymentConfig [] [])]⟩

def sampleSha : String := "0123456789012345678901234567890123456789"

def sampleRequest : DeploymentDb.DeploymentRequest where
  projectId := .ofNat 1
  sourceType := .mainHead
  requestedCommitSha := none
  resolvedCommitSha := sampleSha
  configVersion := 1
  configSnapshot := deploymentConfig [] []

/-- And it has been deployed. -/
def sampleRequested : ConfigHistory :=
  ⟨sampleConfigured.toDatabaseHistory.after (.deployment (.create (.ofNat 9) sampleRequest) 0) id,
    sampleConfigured.stored⟩

/-- One step of a request that runs alone. -/
theorem Reachable.run {o : RequestOp} {k : Except Exc o.Ans → Request Deployment}
    {r : Except Exc o.Ans} (hreach : Reachable ⟨h, [(0, .call o k)]⟩) (hr : React h o r h') :
    Reachable ⟨h', [(0, k r)]⟩ := hreach.tail (.run h h' [] [] 0 o k r hr)

theorem Reachable.other (hreach : Reachable ⟨h, []⟩) (ht : Transaction call h h')
    (hforeign : Foreign call) : Reachable ⟨h', []⟩ :=
  hreach.tail (.other h h' [] ⟨call, hforeign, ht⟩)

theorem reachable_sampleRequested : ∃ threads, Reachable ⟨sampleRequested, threads⟩ := by
  have hproject : Transaction (.createProject (.ofNat 1) "app" "https://example/app") start
      ⟨sampleProject, []⟩ := ⟨⟨fun _ ↦ none, by simp [DatabaseCall.draws, start, DatabaseHistory.start],
    rfl, id, rfl⟩, rfl⟩
  have hconfigured : Transaction (.updateSettings (.ofNat 1) 0 (deploymentConfig [] []) [])
      ⟨sampleProject, []⟩ sampleConfigured := ⟨⟨fun _ ↦ none, by simp [DatabaseCall.draws], rfl, id, rfl⟩, rfl⟩
  have hrequested : Transaction (.deployment (.create (.ofNat 9) sampleRequest) 0) sampleConfigured
      sampleRequested := ⟨⟨fun _ ↦ some .ready, by simp [DatabaseCall.draws], rfl, id, rfl⟩, rfl⟩
  have hsettings : Reachable ⟨sampleConfigured, []⟩ :=
    (Reachable.other .refl hproject trivial).other hconfigured ⟨[], [], rfl⟩
  have hspawned : Reachable ⟨sampleConfigured, [(0, (DeploymentService.mk none).request (.ofNat 1)
      { type := .mainHead })]⟩ :=
    hsettings.tail (.spawn _ [] 0 _ (by simp) ⟨_, _, _, rfl⟩)
  have hready := Reachable.run hspawned (.project rfl)
  have hread := Reachable.run hready (.project rfl)
  have hcommits := Reachable.run hread (.recentCommits _ [sampleSha])
  exact ⟨_, Reachable.run hcommits (.lost hrequested .database)⟩

/-- The deployment of `sampleRequested`. -/
theorem reachable_snapshots_sample : ∃ row,
    sampleRequested.db.deployments.lookup (.ofNat 9) = some row
      ∧ ∃ config, sampleRequested.Stored row.projectId row.configVersion config
        ∧ configPart row.configSnapshot = config := by
  obtain ⟨threads, hr⟩ := reachable_sampleRequested
  have hsome : (sampleRequested.db.deployments.lookup (.ofNat 9)).isSome = true := rfl
  obtain ⟨row, hrow⟩ := Option.isSome_iff_exists.mp hsome
  obtain ⟨config, hs, -, -, hpart⟩ := (reachable_snapshots hr).1 _ row hrow
  exact ⟨row, hrow, config, hs, hpart⟩

end ConfigHistory

end Heimdall
