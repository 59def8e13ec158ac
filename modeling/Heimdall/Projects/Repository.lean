import Heimdall.Effect.Fallible
import Heimdall.Effect.Table
import Heimdall.Projects.Configuration
import Heimdall.PublicRoutes.Repository
import Heimdall.Text.Sha256

/-!
# The project repository

The tables of projects and of their environment secrets, with the operations that settings are
stored by. An operation is one transaction, which raises and leaves the tables alone or returns with
the tables after its commit.
-/

namespace Heimdall

structure ProjectRow where
  name : String
  repositoryUrl : String
  branch : String
  status : ProjectStatus
  configVersion : ℕ
  deploymentConfig : Option Json.Value
  createdAt : Time
  updatedAt : Time

structure Project extends ProjectRow where
  id : Uuid
  hasManagedDatabase : Bool := false

/-- `ProjectService._ensure_ready` -/
def Project.ensureReady (project : Project) : Except Exc Project :=
  if project.status = .deleting then
    .error (.appError 409 "PROJECT_DELETING" "Project deletion is in progress")
  else if project.status ≠ .ready ∨ project.deploymentConfig.isNone then
    .error (.appError 409 "PROJECT_NOT_READY" "Complete project settings before deployment")
  else .ok project

theorem Project.ensureReady_ok {project project' : Project} (h : project.ensureReady = .ok project') :
    project' = project ∧ project.status = .ready ∧ project.deploymentConfig.isSome = true := by
  unfold ensureReady at h
  split at h
  · cases h
  split at h
  · cases h
  next hready =>
  obtain ⟨hstatus, hconfig⟩ := not_or.mp hready
  exact ⟨(Except.ok.inj h).symm, not_not.mp hstatus, by simpa [Option.isSome_iff_ne_none] using hconfig⟩

/-- The columns of `project_environment_secrets` beside its key. -/
structure EnvironmentSecretRow where
  secretReference : String
  secretVersion : ℕ
  secretFingerprint : String
  createdAt : Time
  updatedAt : Time
deriving DecidableEq

inductive ProjectDatabaseStatus where
  | provisioning
  | active
  | failed
deriving DecidableEq

inductive ProjectDatabasePhase where
  | intentRecorded
  | secretReady
  | roleReady
  | databaseReady
  | privilegesReady
  | active
deriving DecidableEq

/-- A row of `project_database_resources` apart from the project it belongs to. -/
structure ProjectDatabaseRow where
  id : Uuid
  status : ProjectDatabaseStatus
  phase : ProjectDatabasePhase
  databaseName : String
  roleName : String
  schemaName : String
  credentialReference : Option String := none
  credentialVersion : Option ℕ := none
  credentialFingerprint : Option String := none
  stateVersion : ℕ := 0
  failureStage : Option String := none
  failureCode : Option String := none
  createdAt : Time
  updatedAt : Time
deriving DecidableEq

/-- A project, a service and a variable. -/
abbrev SecretKey : Type := Uuid × String × String

def ProjectEnvironmentSecret.key (s : ProjectEnvironmentSecret) : SecretKey :=
  (s.projectId, s.serviceName, s.variableName)

/-- The column types of `project_environment_secrets`. -/
def ProjectEnvironmentSecret.fits (s : ProjectEnvironmentSecret) : Bool :=
  s.serviceName.length ≤ 32 && s.variableName.length ≤ 128 && s.secretVersion < 2 ^ 31

/-- The `CHECK` constraints of `project_environment_secrets`. -/
def ProjectEnvironmentSecret.checks (s : ProjectEnvironmentSecret) : Bool :=
  0 < s.secretVersion && Sha256.isHexdigest s.secretFingerprint

/-- The tables the project operations read and write. -/
structure ProjectDb where
  projects : AList fun _ : Uuid ↦ ProjectRow
  /-- `project_environment_secrets`. -/
  environmentSecrets : AList fun _ : SecretKey ↦ EnvironmentSecretRow
  /-- `project_database_resources`, by project. -/
  databaseResources : AList fun _ : Uuid ↦ ProjectDatabaseRow

namespace ProjectDb

def empty : ProjectDb := ⟨∅, ∅, ∅⟩

/-! ## Operations -/

def create (db : ProjectDb) (id : Uuid) (name repositoryUrl : String) (now : Time) :
    Except Exc (Project × ProjectDb) :=
  if 100 < name.length then .error .database
  else if id ∈ db.projects || db.projects.entries.any fun e ↦
      e.2.name == name || e.2.repositoryUrl == repositoryUrl then .error .projectConflict
  else
    let row : ProjectRow := {
      name, repositoryUrl, branch := "main", status := .draft, configVersion := 0,
      deploymentConfig := none, createdAt := now, updatedAt := now }
    .ok ({ row with id }, { db with projects := db.projects.insert id row })

def get (db : ProjectDb) (p : Uuid) : Except Exc Project :=
  match db.projects.lookup p with
  | some row =>
    .ok { row with id := p, hasManagedDatabase := (db.databaseResources.lookup p).isSome }
  | none => .error .projectNotFound

/-- `_environment_secret` -/
def environmentSecret (key : SecretKey) (row : EnvironmentSecretRow) : ProjectEnvironmentSecret where
  projectId := key.1
  serviceName := key.2.1
  variableName := key.2.2
  secretReference := row.secretReference
  secretVersion := row.secretVersion
  secretFingerprint := row.secretFingerprint
  createdAt := row.createdAt
  updatedAt := row.updatedAt

def getEnvironmentSecret (db : ProjectDb) (p : Uuid) (serviceName variableName : String) :
    Option ProjectEnvironmentSecret :=
  (db.environmentSecrets.lookup (p, serviceName, variableName)).map
    (environmentSecret (p, serviceName, variableName))

/-- `INSERT ... ON CONFLICT ... DO UPDATE`, which keeps the time of creation. -/
def putSecret (db : ProjectDb) (s : ProjectEnvironmentSecret) : Except Exc ProjectDb :=
  if !s.fits then .error .database
  else if !s.checks then .error .checkViolation
  else if s.projectId ∉ db.projects then .error .database
  else
    let row : EnvironmentSecretRow := {
      secretReference := s.secretReference
      secretVersion := s.secretVersion
      secretFingerprint := s.secretFingerprint
      createdAt := ((db.environmentSecrets.lookup s.key).map (·.createdAt)).getD s.createdAt
      updatedAt := s.updatedAt }
    .ok { db with environmentSecrets := db.environmentSecrets.insert s.key row }

/-- Delete the secrets of a project but these, named by service and variable. -/
def deleteOthers (db : ProjectDb) (p : Uuid) (active : List (String × String)) : ProjectDb :=
  let others := db.environmentSecrets.keys.filter fun key ↦ key.1 = p ∧ key.2 ∉ active
  let erase (secrets : AList fun _ : SecretKey ↦ EnvironmentSecretRow) (key : SecretKey) :=
    secrets.erase key
  { db with environmentSecrets := others.foldl erase db.environmentSecrets }

def updateSettings (db : ProjectDb) (p : Uuid) (expectedVersion : ℕ) (config : Json.Value)
    (secrets : List ProjectEnvironmentSecret) (now : Time) : Except Exc (Project × ProjectDb) :=
  match db.projects.lookup p with
  | none => .error .projectNotFound
  | some row =>
    if row.configVersion = expectedVersion ∧ row.status ≠ .deleting then
      if 2 ^ 31 ≤ row.configVersion + 1 then .error .database
      else do
        let row := { row with
          deploymentConfig := some config, configVersion := row.configVersion + 1,
          status := .ready, updatedAt := now }
        let db := { db with projects := db.projects.insert p row }
        let db ← secrets.foldlM putSecret (db.deleteOthers p (secrets.map fun s ↦ s.key.2))
        pure ({ row with id := p }, db)
    else if row.status = .deleting then .error (.projectDeletionConflict "PROJECT_DELETING")
    else .error .projectVersionConflict

/-! ## What an operation does -/

variable {db db' : ProjectDb} {p : Uuid} {secrets : List ProjectEnvironmentSecret}

/-- The row a secret is stored in. -/
def EnvironmentSecretRow.Of (row : EnvironmentSecretRow) (s : ProjectEnvironmentSecret) : Prop :=
  row.secretReference = s.secretReference ∧ row.secretVersion = s.secretVersion
    ∧ row.secretFingerprint = s.secretFingerprint

theorem lookup_foldl_erase (keys : List SecretKey)
    (secrets : AList fun _ : SecretKey ↦ EnvironmentSecretRow) (key : SecretKey) :
    (keys.foldl (fun secrets key ↦ secrets.erase key) secrets).lookup key
      = if key ∈ keys then none else secrets.lookup key := by
  induction keys generalizing secrets with
  | nil => simp
  | cons k keys ih =>
    rw [List.foldl_cons, ih]
    by_cases hkey : key = k
    · subst hkey
      simp
    · rw [AList.lookup_erase_ne hkey]
      simp [hkey]

theorem lookup_deleteOthers (db : ProjectDb) (p : Uuid) (active : List (String × String))
    (key : SecretKey) : (db.deleteOthers p active).environmentSecrets.lookup key
      = if key.1 = p ∧ key.2 ∉ active then none else db.environmentSecrets.lookup key := by
  rw [deleteOthers, lookup_foldl_erase]
  by_cases hkey : key.1 = p ∧ key.2 ∉ active
  · rw [if_pos hkey]
    split
    · rfl
    · next hmem =>
      refine AList.lookup_eq_none.mpr fun hin ↦ hmem ?_
      exact List.mem_filter.mpr ⟨AList.mem_keys.mp hin, by simpa using hkey⟩
  · rw [if_neg hkey, if_neg]
    exact fun hmem ↦ hkey (by simpa using (List.mem_filter.mp hmem).2)

theorem putSecret_ok {s : ProjectEnvironmentSecret} (h : db.putSecret s = .ok db') :
    ∃ row, EnvironmentSecretRow.Of row s
      ∧ db' = { db with environmentSecrets := db.environmentSecrets.insert s.key row } := by
  unfold putSecret at h
  split at h
  · cases h
  split at h
  · cases h
  split at h
  · cases h
  · exact ⟨_, ⟨rfl, rfl, rfl⟩, (Except.ok.inj h).symm⟩

theorem putSecret_succeeds {s : ProjectEnvironmentSecret} (hfits : s.fits = true)
    (hchecks : s.checks = true) (hp : s.projectId ∈ db.projects) :
    ∃ db', db.putSecret s = .ok db' ∧ db'.projects = db.projects := by
  simp [putSecret, hfits, hchecks, hp]

theorem putSecrets_ok (h : secrets.foldlM putSecret db = .ok db')
    (hnodup : (secrets.map ProjectEnvironmentSecret.key).Nodup) :
    db'.projects = db.projects ∧ db'.databaseResources = db.databaseResources
      ∧ (∀ s ∈ secrets, ∃ row, db'.environmentSecrets.lookup s.key = some row
        ∧ EnvironmentSecretRow.Of row s)
      ∧ ∀ key, key ∉ secrets.map ProjectEnvironmentSecret.key →
        db'.environmentSecrets.lookup key = db.environmentSecrets.lookup key := by
  induction secrets generalizing db with
  | nil =>
    obtain rfl := Except.ok.inj h
    exact ⟨rfl, rfl, by simp, fun _ _ ↦ rfl⟩
  | cons s secrets ih =>
    rw [List.foldlM_cons] at h
    obtain ⟨hs, hrest⟩ := List.nodup_cons.mp hnodup
    obtain ⟨db₁, hput, h⟩ := bind_eq_ok h
    obtain ⟨row, hrow, rfl⟩ := putSecret_ok hput
    obtain ⟨hprojects, hresources, hstored, hkept⟩ := ih h hrest
    refine ⟨hprojects, hresources, fun s' hs' ↦ ?_, fun key hkey ↦ ?_⟩
    · rcases List.mem_cons.mp hs' with rfl | hs'
      · exact ⟨row, (hkept _ hs).trans (AList.lookup_insert _), hrow⟩
      · exact hstored s' hs'
    · rw [List.map_cons, List.mem_cons, not_or] at hkey
      exact (hkept key hkey.2).trans (AList.lookup_insert_ne hkey.1)

theorem putSecrets_succeeds (h : ∀ s ∈ secrets, s.fits = true ∧ s.checks = true
    ∧ s.projectId ∈ db.projects) : ∃ db', secrets.foldlM putSecret db = .ok db' := by
  induction secrets generalizing db with
  | nil => exact ⟨db, rfl⟩
  | cons s secrets ih =>
    obtain ⟨hfits, hchecks, hproject⟩ := h s List.mem_cons_self
    obtain ⟨db₁, hput, hprojects⟩ := putSecret_succeeds hfits hchecks hproject
    obtain ⟨db', hrest⟩ := ih fun s hs ↦ hprojects ▸ h s (List.mem_cons_of_mem _ hs)
    exact ⟨db', by rw [List.foldlM_cons, hput]; exact hrest⟩

theorem create_ok {id : Uuid} {name repositoryUrl : String} {now : Time} {project : Project}
    (h : db.create id name repositoryUrl now = .ok (project, db')) :
    db.projects.lookup id = none ∧ ∃ row : ProjectRow, row.status = .draft ∧ row.configVersion = 0
      ∧ row.deploymentConfig = none ∧ db' = { db with projects := db.projects.insert id row } := by
  unfold create at h
  split at h
  · cases h
  split at h
  · cases h
  next hfree =>
  obtain ⟨-, rfl⟩ := Prod.mk.inj (Except.ok.inj h)
  simp only [Bool.or_eq_true, decide_eq_true_eq, not_or] at hfree
  exact ⟨AList.lookup_eq_none.mpr hfree.1, _, rfl, rfl, rfl, rfl⟩

theorem putSecrets_projects (h : secrets.foldlM putSecret db = .ok db') :
    db'.projects = db.projects ∧ db'.databaseResources = db.databaseResources := by
  induction secrets generalizing db with
  | nil =>
    obtain rfl := Except.ok.inj h
    exact ⟨rfl, rfl⟩
  | cons s secrets ih =>
    rw [List.foldlM_cons] at h
    obtain ⟨db₁, hput, h⟩ := bind_eq_ok h
    obtain ⟨row, -, rfl⟩ := putSecret_ok hput
    obtain ⟨hprojects, hresources⟩ := ih h
    exact ⟨hprojects, hresources⟩

/-- What new settings make of the row of their project. -/
structure SettingsRow (old row : ProjectRow) (expectedVersion : ℕ) (config : Json.Value) : Prop where
  expected : old.configVersion = expectedVersion
  live : old.status ≠ .deleting
  bounded : old.configVersion + 1 < 2 ^ 31
  version : row.configVersion = old.configVersion + 1
  config : row.deploymentConfig = some config
  status : row.status = .ready

theorem updateSettings_row {expectedVersion : ℕ} {config : Json.Value} {now : Time}
    {project : Project}
    (h : db.updateSettings p expectedVersion config secrets now = .ok (project, db')) :
    ∃ old row, db.projects.lookup p = some old ∧ SettingsRow old row expectedVersion config
      ∧ project = { row with id := p } ∧ db'.projects = db.projects.insert p row
      ∧ db'.databaseResources = db.databaseResources := by
  unfold updateSettings at h
  split at h
  · cases h
  next old hold =>
  split at h
  · next hguard =>
    obtain ⟨hversion, hlive⟩ := hguard
    split at h
    · cases h
    next hbounded =>
    obtain ⟨db₁, hput, h⟩ := bind_eq_ok h
    obtain ⟨rfl, rfl⟩ := Prod.mk.inj (Except.ok.inj h)
    obtain ⟨hprojects, hresources⟩ := putSecrets_projects hput
    exact ⟨old, _, hold, ⟨hversion, hlive, not_le.mp hbounded, rfl, rfl, rfl⟩, rfl, hprojects,
      hresources⟩
  · split at h <;> cases h

/-- What a commit of new settings does to the tables. -/
structure SettingsCommit (db db' : ProjectDb) (p : Uuid) (old row : ProjectRow) (config : Json.Value)
    (secrets : List ProjectEnvironmentSecret) : Prop where
  found : db.projects.lookup p = some old
  live : old.status ≠ .deleting
  bounded : old.configVersion + 1 < 2 ^ 31
  version : row.configVersion = old.configVersion + 1
  config : row.deploymentConfig = some config
  status : row.status = .ready
  projects : db'.projects = db.projects.insert p row
  resources : db'.databaseResources = db.databaseResources
  stored : ∀ s ∈ secrets, ∃ secretRow, db'.environmentSecrets.lookup s.key = some secretRow
    ∧ EnvironmentSecretRow.Of secretRow s
  deleted : ∀ key, key.1 = p → key ∉ secrets.map ProjectEnvironmentSecret.key →
    db'.environmentSecrets.lookup key = none
  kept : ∀ key, key.1 ≠ p → db'.environmentSecrets.lookup key = db.environmentSecrets.lookup key

theorem updateSettings_ok {expectedVersion : ℕ} {config : Json.Value} {now : Time}
    {project : Project}
    (h : db.updateSettings p expectedVersion config secrets now = .ok (project, db'))
    (hnodup : (secrets.map ProjectEnvironmentSecret.key).Nodup)
    (hproject : ∀ s ∈ secrets, s.projectId = p) :
    ∃ old row, old.configVersion = expectedVersion ∧ project = { row with id := p }
      ∧ SettingsCommit db db' p old row config secrets := by
  unfold updateSettings at h
  split at h
  · cases h
  next old hold =>
  split at h
  · next hguard =>
    obtain ⟨hversion, hlive⟩ := hguard
    split at h
    · cases h
    next hbounded =>
    obtain ⟨db₁, hput, h⟩ := bind_eq_ok h
    obtain ⟨rfl, rfl⟩ := Prod.mk.inj (Except.ok.inj h)
    obtain ⟨hprojects, hresources, hstored, hkept⟩ := putSecrets_ok hput hnodup
    refine ⟨old, _, hversion, rfl, hold, hlive, not_le.mp hbounded, rfl, rfl, rfl, hprojects,
      hresources, hstored, fun key hp hkey ↦ ?_, fun key hp ↦ ?_⟩
    · rw [hkept key hkey, lookup_deleteOthers, if_pos]
      refine ⟨hp, fun hmem ↦ hkey ?_⟩
      obtain ⟨s, hs, heq⟩ := List.mem_map.mp hmem
      exact List.mem_map.mpr ⟨s, hs, Prod.ext ((hproject s hs).trans hp.symm) heq⟩
    · have hkey : key ∉ secrets.map ProjectEnvironmentSecret.key := fun hmem ↦ by
        obtain ⟨s, hs, rfl⟩ := List.mem_map.mp hmem
        exact hp (hproject s hs)
      rw [hkept key hkey, lookup_deleteOthers, if_neg fun h ↦ hp h.1]
  · split at h <;> cases h

theorem updateSettings_succeeds {old : ProjectRow} (config : Json.Value) (now : Time)
    (hold : db.projects.lookup p = some old) (hlive : old.status ≠ .deleting)
    (hbounded : old.configVersion + 1 < 2 ^ 31)
    (hsecrets : ∀ s ∈ secrets, s.fits = true ∧ s.checks = true ∧ s.projectId = p) :
    ∃ project db', db.updateSettings p old.configVersion config secrets now
      = .ok (project, db') := by
  have hput : ∀ row : ProjectRow, ∃ db', secrets.foldlM putSecret (deleteOthers
      { db with projects := db.projects.insert p row } p (secrets.map fun s ↦ s.key.2))
      = .ok db' := by
    refine fun row ↦ putSecrets_succeeds fun s hs ↦ ?_
    obtain ⟨hfits, hchecks, rfl⟩ := hsecrets s hs
    exact ⟨hfits, hchecks, by simp [deleteOthers]⟩
  let row : ProjectRow := { old with
    deploymentConfig := some config, configVersion := old.configVersion + 1, status := .ready,
    updatedAt := now }
  obtain ⟨db', hdb'⟩ := hput row
  refine ⟨{ row with id := p }, db', ?_⟩
  simp only [updateSettings, hold]
  rw [if_pos ⟨trivial, hlive⟩, if_neg (not_le.mpr hbounded), hdb']
  rfl

end ProjectDb

end Heimdall
