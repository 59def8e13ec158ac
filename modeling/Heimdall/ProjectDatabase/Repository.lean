import Heimdall.Projects.Repository

/-!
# The repository of project databases

One row for each project that has a managed database: how far it has been provisioned (`phase`),
whether that has failed (`status`), and a version that every update counts up. `ensure_intent` locks
the project before it looks at the project's status; an update goes through only when nobody has
updated the row since it was read.
-/

namespace Heimdall

/-- The database of a project as the program passes it around. -/
structure ProjectDatabaseResource extends ProjectDatabaseRow where
  projectId : Uuid
deriving DecidableEq

/-- The column types of `project_database_resources`. -/
def ProjectDatabaseRow.fits (r : ProjectDatabaseRow) : Bool :=
  r.databaseName.length ≤ 63 && r.roleName.length ≤ 63 && r.schemaName.length ≤ 63
    && r.credentialVersion.all (· < 2 ^ 31) && r.stateVersion < 2 ^ 31
    && r.failureStage.all (·.length ≤ 32) && r.failureCode.all (·.length ≤ 64)

/-- The `CHECK` constraints of `project_database_resources`. -/
def ProjectDatabaseRow.checks (r : ProjectDatabaseRow) : Bool :=
  r.credentialVersion.all (0 < ·) && r.credentialFingerprint.all Sha256.isHexdigest
    && (r.credentialReference.isSome == r.credentialVersion.isSome)
    && (r.credentialVersion.isSome == r.credentialFingerprint.isSome)

/-- The tables these operations read and write. -/
structure ResourceDb where
  /-- The status of each existing project. -/
  projects : Uuid → Option ProjectStatus
  /-- `project_database_resources`, by project. -/
  resources : AList fun _ : Uuid ↦ ProjectDatabaseRow

namespace ResourceDb

/-- `_resource` -/
def resource (p : Uuid) (row : ProjectDatabaseRow) : ProjectDatabaseResource :=
  { row with projectId := p }

def getForProject (db : ResourceDb) (p : Uuid) : Option ProjectDatabaseResource :=
  (db.resources.lookup p).map (resource p)

/-- Write a row, under the checks and the unique columns of the table. -/
def put (db : ResourceDb) (p : Uuid) (row : ProjectDatabaseRow) : Except Exc ResourceDb :=
  if !row.fits then .error .database
  else if !row.checks then .error .checkViolation
  else if db.resources.entries.any fun e ↦ e.1 != p && (e.2.id == row.id
      || e.2.databaseName == row.databaseName || e.2.roleName == row.roleName) then
    .error .uniqueViolation
  else .ok { db with resources := db.resources.insert p row }

/-- The row `ensure_intent` inserts, with the fresh number it draws. -/
def intentRow (id : Uuid) (now : Time) : ProjectDatabaseRow where
  id := id
  status := .provisioning
  phase := .intentRecorded
  databaseName := "hd_db_" ++ id.hex
  roleName := "hd_role_" ++ id.hex
  schemaName := "app"
  createdAt := now
  updatedAt := now

def ensureIntent (db : ResourceDb) (p id : Uuid) (now : Time) :
    Except Exc (ProjectDatabaseResource × ResourceDb) :=
  if db.projects p = some .deleting then .error .projectDatabaseProjectDeleting
  else match db.resources.lookup p with
    | some row => .ok (resource p row, db)
    | none =>
      if (db.projects p).isNone then .error .database
      else do
        let row := intentRow id now
        let db ← db.put p row
        .ok (resource p row, db)

/-- `_update` -/
def update (db : ResourceDb) (r : ProjectDatabaseResource) (now : Time)
    (set : ProjectDatabaseRow → ProjectDatabaseRow) :
    Except Exc (ProjectDatabaseResource × ResourceDb) :=
  match db.resources.lookup r.projectId with
  | some row =>
    if row.id = r.id ∧ row.stateVersion = r.stateVersion then do
      let row := { set row with stateVersion := row.stateVersion + 1, updatedAt := now }
      let db ← db.put r.projectId row
      .ok (resource r.projectId row, db)
    else .error .projectDatabaseVersionConflict
  | none => .error .projectDatabaseVersionConflict

def beginRetry (db : ResourceDb) (r : ProjectDatabaseResource) (now : Time) :
    Except Exc (ProjectDatabaseResource × ResourceDb) :=
  db.update r now fun row ↦ { row with
    status := .provisioning
    failureStage := none
    failureCode := none }

def recordSecret (db : ResourceDb) (r : ProjectDatabaseResource) (reference : String)
    (version : ℕ) (fingerprint : String) (now : Time) :
    Except Exc (ProjectDatabaseResource × ResourceDb) :=
  db.update r now fun row ↦ { row with
    credentialReference := some reference
    credentialVersion := some version
    credentialFingerprint := some fingerprint
    phase := .secretReady }

def advance (db : ResourceDb) (r : ProjectDatabaseResource) (phase : ProjectDatabasePhase)
    (now : Time) : Except Exc (ProjectDatabaseResource × ResourceDb) :=
  db.update r now fun row ↦
    if phase = .active then { row with phase := phase, status := .active }
    else { row with phase := phase }

def markFailed (db : ResourceDb) (r : ProjectDatabaseResource) (stage code : String)
    (now : Time) : Except Exc (ProjectDatabaseResource × ResourceDb) :=
  db.update r now fun row ↦ { row with
    status := .failed
    failureStage := some stage
    failureCode := some code }

/-! ## What an operation does -/

variable {db db' : ResourceDb} {p id : Uuid} {row : ProjectDatabaseRow} {now : Time}
  {r r' : ProjectDatabaseResource}

/-- The row meets the checks of the table, and no other row has its number or its names. -/
structure Admits (db : ResourceDb) (p : Uuid) (row : ProjectDatabaseRow) : Prop where
  fits : row.fits = true
  checks : row.checks = true
  apart : ∀ q other, q ≠ p → db.resources.lookup q = some other → other.id ≠ row.id
    ∧ other.databaseName ≠ row.databaseName ∧ other.roleName ≠ row.roleName

theorem put_ok (h : db.put p row = .ok db') :
    db' = { db with resources := db.resources.insert p row } ∧ db.Admits p row := by
  unfold put at h
  split at h
  · cases h
  next hfits =>
  split at h
  · cases h
  next hchecks =>
  split at h
  · cases h
  next hapart =>
  refine ⟨(Except.ok.inj h).symm, by simpa using hfits, by simpa using hchecks,
    fun q other hq hother ↦ ?_⟩
  have hmem : Sigma.mk q other ∈ db.resources.entries := AList.mem_lookup_iff.mp hother
  simp only [Bool.not_eq_true, List.any_eq_false] at hapart
  simpa [hq, and_assoc] using hapart _ hmem

theorem ensureIntent_ok (h : db.ensureIntent p id now = .ok (r, db')) :
    db.projects p ≠ some .deleting ∧ ((db' = db ∧ db.getForProject p = some r)
      ∨ db.resources.lookup p = none ∧ (db.projects p).isSome = true
        ∧ db.Admits p (intentRow id now) ∧ r = resource p (intentRow id now)
        ∧ db' = { db with resources := db.resources.insert p (intentRow id now) }) := by
  unfold ensureIntent at h
  split at h
  · cases h
  next hlive =>
  refine ⟨hlive, ?_⟩
  split at h
  · next row hrow =>
    obtain ⟨rfl, rfl⟩ := Prod.mk.inj (Except.ok.inj h)
    exact .inl ⟨rfl, by rw [getForProject, hrow]; rfl⟩
  · next hnone =>
    split at h
    · cases h
    next hproject =>
    obtain ⟨db₁, hput, h⟩ := bind_eq_ok h
    obtain ⟨rfl, rfl⟩ := Prod.mk.inj (Except.ok.inj h)
    exact .inr ⟨hnone, by simpa [Option.isSome_iff_ne_none] using hproject, (put_ok hput).2, rfl,
      (put_ok hput).1⟩

/-- The row after an update. -/
def updatedRow (row : ProjectDatabaseRow) (now : Time)
    (set : ProjectDatabaseRow → ProjectDatabaseRow) : ProjectDatabaseRow :=
  { set row with stateVersion := row.stateVersion + 1, updatedAt := now }

theorem update_ok {set : ProjectDatabaseRow → ProjectDatabaseRow}
    (h : db.update r now set = .ok (r', db')) :
    ∃ row, db.resources.lookup r.projectId = some row ∧ row.id = r.id
      ∧ row.stateVersion = r.stateVersion ∧ db.Admits r.projectId (updatedRow row now set)
      ∧ r' = resource r.projectId (updatedRow row now set) ∧ db' = { db with
        resources := db.resources.insert r.projectId (updatedRow row now set) } := by
  unfold update at h
  split at h
  · next row hrow =>
    split at h
    · next hmatch =>
      obtain ⟨db₁, hput, h⟩ := bind_eq_ok h
      obtain ⟨rfl, rfl⟩ := Prod.mk.inj (Except.ok.inj h)
      exact ⟨row, hrow, hmatch.1, hmatch.2, (put_ok hput).2, rfl, (put_ok hput).1⟩
    · cases h
  · cases h

end ResourceDb

end Heimdall
