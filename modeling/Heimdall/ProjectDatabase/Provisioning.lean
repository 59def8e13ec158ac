import Heimdall.Effect.Pool
import Heimdall.ProjectDatabase.Service
import Heimdall.Sessions

/-!
# Provisioning side by side

Calls of `provision` under names, beside whoever else uses the database. A call reads the row of the
resource before it takes the locks, so it may work on a row that has changed since; what it writes
then is refused, for the version in the row has been counted up (`ProvisionWorld.Known`).

What a failed call records is another matter: it reads the row again, and marks it as it is now. A
database that has been provisioned meanwhile is marked as failed, and from then on no call makes it
active again (`ProvisionWorld.reachable_overwritten`). As long as this does not happen, the status and
the phase agree, what is active stays as it is, and a call that nothing disturbs leaves an active
database (`ProvisionWorld.reachable_calm`).
-/

namespace Heimdall

open Effect

/-! ## What a transaction does to a resource -/

namespace ResourceCall

/-- The resource a call updates. -/
def resource? : ResourceCall → Option ProjectDatabaseResource
  | .ensureIntent _ _ => none
  | .beginRetry r | .recordSecret r _ _ _ | .advance r _ | .markFailed r _ _ => some r

/-- The numbers of resources a call draws. -/
def draws : ResourceCall → List Uuid
  | .ensureIntent _ id => [id]
  | _ => []

/-- The assignments of an update. -/
def set : ResourceCall → ProjectDatabaseRow → ProjectDatabaseRow
  | .ensureIntent _ _, row => row
  | .beginRetry _, row =>
    { row with status := .provisioning, failureStage := none, failureCode := none }
  | .recordSecret _ reference version fingerprint, row =>
    { row with
      credentialReference := some reference
      credentialVersion := some version
      credentialFingerprint := some fingerprint
      phase := .secretReady }
  | .advance _ phase, row =>
    if phase = .active then { row with phase := phase, status := .active }
    else { row with phase := phase }
  | .markFailed _ stage code, row =>
    { row with status := .failed, failureStage := some stage, failureCode := some code }

/-- What a transaction that commits does to the table. -/
inductive Commits (now : Time) (db : ResourceDb) :
    ResourceCall → ProjectDatabaseResource → ResourceDb → Prop
  | found {p id : Uuid} {row : ProjectDatabaseRow} (hrow : db.resources.lookup p = some row) :
    Commits now db (.ensureIntent p id) (ResourceDb.resource p row) db
  | created {p id : Uuid} (hnone : db.resources.lookup p = none)
    (hadmits : db.Admits p (ResourceDb.intentRow id now)) :
    Commits now db (.ensureIntent p id) (ResourceDb.resource p (ResourceDb.intentRow id now))
      { db with resources := db.resources.insert p (ResourceDb.intentRow id now) }
  | updated {call : ResourceCall} {r : ProjectDatabaseResource} {row : ProjectDatabaseRow}
    (hcall : call.resource? = some r) (hrow : db.resources.lookup r.projectId = some row)
    (hid : row.id = r.id) (hversion : row.stateVersion = r.stateVersion)
    (hadmits : db.Admits r.projectId (ResourceDb.updatedRow row now call.set)) :
    Commits now db call (ResourceDb.resource r.projectId (ResourceDb.updatedRow row now call.set))
      { db with
        resources := db.resources.insert r.projectId (ResourceDb.updatedRow row now call.set) }

variable {now : Time} {db db' : ResourceDb} {call : ResourceCall} {r r' : ProjectDatabaseResource}

theorem set_id (call : ResourceCall) (row : ProjectDatabaseRow) : (call.set row).id = row.id := by
  cases call with
  | advance r phase =>
    rw [set]
    split <;> rfl
  | _ => rfl

theorem draws_update (hcall : call.resource? = some r) : call.draws = [] := by
  cases call with
  | ensureIntent p id => cases hcall
  | _ => rfl

theorem exec_update (hcall : call.resource? = some r) :
    call.exec now db = db.update r now call.set := by
  cases call with
  | ensureIntent p id => cases hcall
  | _ =>
    obtain rfl := Option.some.inj hcall
    rfl

theorem exec_ok (h : call.exec now db = .ok (r', db')) : Commits now db call r' db' := by
  have hupdate {r : ProjectDatabaseResource} (hcall : call.resource? = some r) :
      Commits now db call r' db' := by
    rw [exec_update hcall] at h
    obtain ⟨row, hrow, hid, hversion, hadmits, rfl, rfl⟩ := ResourceDb.update_ok h
    exact .updated hcall hrow hid hversion hadmits
  cases call with
  | ensureIntent p id =>
    obtain ⟨-, ⟨rfl, hfound⟩ | ⟨hnone, -, hadmits, rfl, rfl⟩⟩ := ResourceDb.ensureIntent_ok h
    · obtain ⟨row, hrow, rfl⟩ := Option.map_eq_some_iff.mp hfound
      exact .found hrow
    · exact .created hnone hadmits
  | _ => exact hupdate rfl

end ResourceCall

/-! ## The world of the calls -/

structure ProvisionWorld where
  db : Database
  /-- The numbers of resources that were drawn. -/
  drawn : List Uuid
  /-- The advisory locks that are held, and by which call. -/
  resourceLocks : List (Uuid × ℕ)
  /-- The rows of `projects` that a call keeps locked. -/
  projectLocks : List (Uuid × ℕ)

namespace ProvisionWorld

/-- The row of a project's resource. -/
def row? (w : ProvisionWorld) (p : Uuid) : Option ProjectDatabaseRow :=
  w.db.databaseResources.lookup p

/-- The table, to a transaction that reads the statuses as they are. -/
def table (w : ProvisionWorld) : ResourceDb := w.db.resourceDb w.db.statuses

/-- A transaction commits. A new row has a new number. -/
structure Transaction (w : ProvisionWorld) (call : ResourceCall) (r : ProjectDatabaseResource)
    (w' : ProvisionWorld) : Prop where
  fresh : ∀ p id, call = .ensureIntent p id → w.row? p = none → id ∉ w.drawn
  exec : ∃ now view, call.exec now w.table = .ok (r, view)
    ∧ w' = { w with db := w.db.putResourceDb view, drawn := call.draws ++ w.drawn }

/-- Nobody keeps the row of the project locked. -/
def ProjectFree (w : ProvisionWorld) (p : Uuid) : Prop := ∀ i, (p, i) ∉ w.projectLocks

/-- Nobody holds the lock of the resource. -/
def ResourceFree (w : ProvisionWorld) (id : Uuid) : Prop := ∀ i, (id, i) ∉ w.resourceLocks

/-- The transaction behind an operation, with what the repository draws for it. -/
inductive Behind : ResourceOp → ResourceCall → Prop
  | ensureIntent (p id : Uuid) : Behind (.ensureIntent p) (.ensureIntent p id)
  | beginRetry (r : ProjectDatabaseResource) : Behind (.beginRetry r) (.beginRetry r)
  | recordSecret (r : ProjectDatabaseResource) (secret : StoredSecret) :
    Behind (.recordSecret r secret)
      (.recordSecret r secret.reference secret.version secret.fingerprint)
  | advance (r : ProjectDatabaseResource) (phase : ProjectDatabasePhase) :
    Behind (.advance r phase) (.advance r phase)
  | markFailed (r : ProjectDatabaseResource) (stage code : String) :
    Behind (.markFailed r stage code) (.markFailed r stage code)

/-- `ensure_intent` locks the row of the project. -/
def Unlocked (w : ProvisionWorld) : ResourceCall → Prop
  | .ensureIntent p _ => w.ProjectFree p
  | _ => True

/-- The operation is one of the secret store or of the managed server. -/
def External : ProvisionOp → Prop
  | .createSecret _ _ | .readSecret _ _ | .ensureRole _ _ _ | .ensureDatabase _ _
  | .ensurePrivileges _ _ _ | .verifyLogin _ _ _ _ => True
  | _ => False

/-- What comes of an operation of a call. -/
inductive React (i : ℕ) (w : ProvisionWorld) :
    (o : ProvisionOp) → Except Exc o.Ans → ProvisionWorld → Prop
  | raise (o : ProvisionOp) (x : Exc) : React i w o (.error x) w
  | project {p : Uuid} {project : Project} (hget : w.db.toProjectDb.get p = .ok project) :
    React i w (.project p) (.ok project) w
  | lockProject {p : Uuid} {project : Project} (hfree : w.ProjectFree p)
    (hget : w.db.toProjectDb.get p = .ok project) :
    React i w (.lockProject p) (.ok project) { w with projectLocks := (p, i) :: w.projectLocks }
  | unlockProject (p : Uuid) : React i w (.unlockProject p) (.ok ())
      { w with projectLocks := w.projectLocks.erase (p, i) }
  | lockResource {id : Uuid} (hfree : w.ResourceFree id) : React i w (.lockResource id) (.ok ())
      { w with resourceLocks := (id, i) :: w.resourceLocks }
  | unlockResource (id : Uuid) : React i w (.unlockResource id) (.ok ())
      { w with resourceLocks := w.resourceLocks.erase (id, i) }
  | getForProject (p : Uuid) :
    React i w (.getForProject p) (.ok (w.table.getForProject p)) w
  | resource {o : ResourceOp} {call : ResourceCall} {r : ProjectDatabaseResource}
    {w' : ProvisionWorld} (hb : Behind o call) (hfree : w.Unlocked call)
    (ht : w.Transaction call r w') : React i w (.resource o) (.ok r) w'
  /-- The transaction has been committed, and its answer is lost. -/
  | lost {o : ResourceOp} {call : ResourceCall} {r : ProjectDatabaseResource} {w' : ProvisionWorld}
    (hb : Behind o call) (hfree : w.Unlocked call) (ht : w.Transaction call r w') (x : Exc) :
    React i w (.resource o) (.error x) w'
  | external {o : ProvisionOp} (ho : External o) (a : o.Ans) : React i w o (.ok a) w

/-! ## What holds of the rows -/

/-- What holds of every row. -/
structure RowGood (row : ProjectDatabaseRow) : Prop where intro ::
  active : row.status = .active ↔ row.phase = .active
  credential : row.phase ≠ .intentRecorded →
    row.credentialReference.isSome = true ∧ row.credentialFingerprint.isSome = true

/-- What holds of every world. -/
structure Good (w : ProvisionWorld) : Prop where
  rows : ∀ p row, w.row? p = some row → RowGood row
  drawn : ∀ p row, w.row? p = some row → row.id ∈ w.drawn
  admits : ∀ p row, w.row? p = some row → w.table.Admits p row

/-- The resource was read from its row: as long as nobody has counted up the version, the row is as
it was read. -/
structure Known (w : ProvisionWorld) (r : ProjectDatabaseResource) : Prop where
  drawn : r.id ∈ w.drawn
  version : ∀ row, w.row? r.projectId = some row → row.id = r.id → r.stateVersion ≤ row.stateVersion
  row : ∀ row, w.row? r.projectId = some row → row.id = r.id → row.stateVersion = r.stateVersion →
    ResourceDb.resource r.projectId row = r

/-- What a call relies on: rows are not replaced, an update counts the version up, and rows that are
active stay as they are. -/
structure Rely (w w' : ProvisionWorld) : Prop where
  drawn : ∀ id ∈ w.drawn, id ∈ w'.drawn
  rows : ∀ p row', w'.row? p = some row' → row'.id ∈ w.drawn →
    ∃ row, w.row? p = some row ∧ row.id = row'.id
      ∧ (row' = row ∨ row.stateVersion < row'.stateVersion ∧ row.status ≠ .active)

/-- What a call may do to the rows. -/
def Allowed (w : ProvisionWorld) : ResourceCall → Prop
  | .ensureIntent _ _ => True
  | .beginRetry r => w.Known r ∧ r.status = .failed
  | .recordSecret r _ _ _ => w.Known r ∧ r.phase = .intentRecorded
  | .advance r _ => w.Known r ∧ r.phase ≠ .intentRecorded ∧ r.phase ≠ .active
  | .markFailed r _ _ => ∀ row, w.row? r.projectId = some row → row.id = r.id →
    row.stateVersion = r.stateVersion → row.phase ≠ .active

variable {w w' w'' : ProvisionWorld} {call : ResourceCall} {r r' : ProjectDatabaseResource}
  {row : ProjectDatabaseRow} {now : Time} {p : Uuid} {i : ℕ}

theorem Rely.refl (w : ProvisionWorld) : Rely w w :=
  ⟨fun _ hid ↦ hid, fun _ row hrow _ ↦ ⟨row, hrow, rfl, .inl rfl⟩⟩

theorem Rely.trans (h₁ : Rely w w') (h₂ : Rely w' w'') : Rely w w'' := by
  refine ⟨fun id hid ↦ h₂.drawn id (h₁.drawn id hid), fun p row'' hrow'' hid ↦ ?_⟩
  obtain ⟨row', hrow', hid', hrow₂⟩ := h₂.rows p row'' hrow'' (h₁.drawn _ hid)
  obtain ⟨row, hrow, hid'', hrow₁⟩ := h₁.rows p row' hrow' (hid' ▸ hid)
  refine ⟨row, hrow, hid''.trans hid', ?_⟩
  rcases hrow₂ with rfl | ⟨hlt₂, hactive₂⟩
  · exact hrow₁
  · rcases hrow₁ with rfl | ⟨hlt₁, hactive₁⟩
    · exact .inr ⟨hlt₂, hactive₂⟩
    · exact .inr ⟨hlt₁.trans hlt₂, hactive₁⟩

theorem Known.mono (hk : w.Known r) (hrely : Rely w w') : w'.Known r := by
  refine ⟨hrely.drawn _ hk.drawn, fun row' hrow' hid ↦ ?_, fun row' hrow' hid hversion ↦ ?_⟩
  all_goals
    obtain ⟨row, hrow, hid', hsame⟩ := hrely.rows _ row' hrow' (hid ▸ hk.drawn)
    have hle := hk.version row hrow (hid'.trans hid)
  · rcases hsame with rfl | ⟨hlt, -⟩
    · exact hle
    · exact hle.trans hlt.le
  · rcases hsame with rfl | ⟨hlt, -⟩
    · exact hk.row _ hrow hid hversion
    · omega

/-- An update that is allowed leaves active rows alone, and what it writes is sound. -/
theorem Good.updated (hg : w.Good) (hallowed : w.Allowed call) (hcall : call.resource? = some r)
    (hrow : w.row? r.projectId = some row) (hid : row.id = r.id)
    (hversion : row.stateVersion = r.stateVersion) :
    row.status ≠ .active ∧ RowGood (ResourceDb.updatedRow row now call.set) := by
  have hgood := hg.rows _ row hrow
  cases call with
  | ensureIntent => cases hcall
  | beginRetry r₁ =>
    obtain rfl := Option.some.inj hcall
    obtain ⟨hk, hfailed⟩ := hallowed
    have hr := hk.row row hrow hid hversion
    have hstatus : row.status = .failed := by rw [← hfailed, ← hr]; rfl
    have hactive : row.status ≠ .active := by rw [hstatus]; decide
    have hset : ProjectDatabaseStatus.provisioning ≠ .active := by decide
    exact ⟨hactive, .intro (iff_of_false hset fun h ↦ hactive (hgood.active.mpr h))
      hgood.credential⟩
  | recordSecret r₁ =>
    obtain rfl := Option.some.inj hcall
    obtain ⟨hk, hintent⟩ := hallowed
    have hr := hk.row row hrow hid hversion
    have hphase : row.phase = .intentRecorded := by rw [← hintent, ← hr]; rfl
    have hactive : row.status ≠ .active := fun h ↦ nomatch hphase.symm.trans (hgood.active.mp h)
    have hset : ProjectDatabasePhase.secretReady ≠ .active := by decide
    exact ⟨hactive, .intro (iff_of_false hactive hset) fun _ ↦ ⟨rfl, rfl⟩⟩
  | advance r₁ phase =>
    obtain rfl := Option.some.inj hcall
    obtain ⟨hk, hintent, hlive⟩ := hallowed
    have hr := hk.row row hrow hid hversion
    have hphase : row.phase = r₁.phase := by rw [← hr]; rfl
    have hactive : row.status ≠ .active := fun h ↦ hlive (hphase ▸ hgood.active.mp h)
    have hcredential := hgood.credential (hphase ▸ hintent)
    refine ⟨hactive, ?_⟩
    by_cases hnext : phase = .active
    · subst hnext
      exact ⟨⟨fun _ ↦ rfl, fun _ ↦ rfl⟩, fun _ ↦ hcredential⟩
    · have hset : ResourceCall.set (.advance r₁ phase) row = { row with phase := phase } :=
        if_neg hnext
      rw [ResourceDb.updatedRow, hset]
      exact ⟨⟨fun h ↦ absurd h hactive, fun h ↦ absurd h hnext⟩, fun _ ↦ hcredential⟩
  | markFailed r₁ =>
    obtain rfl := Option.some.inj hcall
    have hphase := hallowed row hrow hid hversion
    have hset : ProjectDatabaseStatus.failed ≠ .active := by decide
    exact ⟨fun h ↦ hphase (hgood.active.mp h), .intro (iff_of_false hset hphase)
      hgood.credential⟩

theorem Transaction.writes (ht : w.Transaction call r' w') :
    (∃ p id, call = .ensureIntent p id ∧ ((∃ row, w.row? p = some row
        ∧ r' = ResourceDb.resource p row ∧ w'.db = w.db ∧ w'.drawn = id :: w.drawn)
      ∨ ∃ now, w.row? p = none ∧ w.table.Admits p (ResourceDb.intentRow id now)
        ∧ r' = ResourceDb.resource p (ResourceDb.intentRow id now) ∧ w'.drawn = id :: w.drawn
        ∧ ∀ q, w'.row? q = if q = p then some (ResourceDb.intentRow id now) else w.row? q))
    ∨ ∃ r row now, call.resource? = some r ∧ w.row? r.projectId = some row ∧ row.id = r.id
      ∧ row.stateVersion = r.stateVersion
      ∧ w.table.Admits r.projectId (ResourceDb.updatedRow row now call.set)
      ∧ r' = ResourceDb.resource r.projectId (ResourceDb.updatedRow row now call.set)
      ∧ w'.drawn = w.drawn ∧ ∀ q, w'.row? q
        = if q = r.projectId then some (ResourceDb.updatedRow row now call.set) else w.row? q := by
  obtain ⟨now, view, hexec, rfl⟩ := ht.exec
  cases ResourceCall.exec_ok hexec with
  | found hrow => exact .inl ⟨_, _, rfl, .inl ⟨_, hrow, rfl, rfl, rfl⟩⟩
  | created hnone hadmits =>
    exact .inl ⟨_, _, rfl, .inr ⟨now, hnone, hadmits, rfl, rfl, fun q ↦ lookup_insert' _ _ _ _⟩⟩
  | @updated _ r row hcall hrow hid hversion hadmits =>
    refine .inr ⟨r, row, now, hcall, hrow, hid, hversion, hadmits, rfl, ?_,
      fun q ↦ lookup_insert' _ _ _ _⟩
    rw [ResourceCall.draws_update hcall]
    rfl

/-- What the table admits in one row it goes on admitting in the others. -/
theorem admits_insert {new : ProjectDatabaseRow} (hnew : w.table.Admits p new)
    (hrows : ∀ q, w'.row? q = if q = p then some new else w.row? q)
    (hg : ∀ q row, w.row? q = some row → w.table.Admits q row) {q : Uuid}
    (hrow : w'.row? q = some row) : w'.table.Admits q row := by
  rw [hrows] at hrow
  split_ifs at hrow with hq
  · obtain rfl := Option.some.inj hrow
    refine ⟨hnew.fits, hnew.checks, fun q' other hq' hother ↦ ?_⟩
    have hother : w'.row? q' = some other := hother
    rw [hrows, if_neg (hq ▸ hq')] at hother
    exact hnew.apart q' other (hq ▸ hq') hother
  · have hold := hg q row hrow
    refine ⟨hold.fits, hold.checks, fun q' other hq' hother ↦ ?_⟩
    have hother : w'.row? q' = some other := hother
    rw [hrows] at hother
    split_ifs at hother
    · obtain rfl := Option.some.inj hother
      obtain ⟨hid, hdatabase, hrole⟩ := hnew.apart q row hq hrow
      exact ⟨hid.symm, hdatabase.symm, hrole.symm⟩
    · exact hold.apart q' other hq' hother

theorem RowGood.of_intent (id : Uuid) (now : Time) : RowGood (ResourceDb.intentRow id now) := by
  have hstatus : ProjectDatabaseStatus.provisioning ≠ .active := by decide
  have hphase : ProjectDatabasePhase.intentRecorded ≠ .active := by decide
  exact .intro (iff_of_false hstatus hphase) fun h ↦ absurd rfl h

theorem Transaction.locks (ht : w.Transaction call r' w') :
    w'.projectLocks = w.projectLocks ∧ w'.resourceLocks = w.resourceLocks := by
  obtain ⟨now, view, -, rfl⟩ := ht.exec
  exact ⟨rfl, rfl⟩

theorem Transaction.good (hg : w.Good) (ht : w.Transaction call r' w') (hallowed : w.Allowed call) :
    w'.Good := by
  have hinsert {p : Uuid} {new : ProjectDatabaseRow}
      (hrows : ∀ q, w'.row? q = if q = p then some new else w.row? q) (hgood : RowGood new)
      (hdrawn : new.id ∈ w'.drawn) (hmono : ∀ id ∈ w.drawn, id ∈ w'.drawn)
      (hadmits : w.table.Admits p new) : w'.Good := by
    refine ⟨fun q row hrow ↦ ?_, fun q row hrow ↦ ?_,
      fun q row hrow ↦ admits_insert hadmits hrows hg.admits hrow⟩
    all_goals
      rw [hrows] at hrow
      split_ifs at hrow
    · exact Option.some.inj hrow ▸ hgood
    · exact hg.rows q row hrow
    · exact Option.some.inj hrow ▸ hdrawn
    · exact hmono _ (hg.drawn q row hrow)
  rcases ht.writes with ⟨p, id, rfl, ⟨row, -, -, hdb, hdrawn⟩ | ⟨now, -, hadmits, -, hdrawn, hrows⟩⟩
    | ⟨r, row, now, hcall, hrow, hid, hversion, hadmits, -, hdrawn, hrows⟩
  · have hsame (q : Uuid) : w'.row? q = w.row? q := by rw [row?, hdb]; rfl
    have htable : w'.table = w.table := by rw [table, hdb]; rfl
    refine ⟨fun q row hrow ↦ hg.rows q row (hsame q ▸ hrow), fun q row hrow ↦ ?_,
      fun q row hrow ↦ htable ▸ hg.admits q row (hsame q ▸ hrow)⟩
    rw [hdrawn]
    exact List.mem_cons_of_mem _ (hg.drawn q row (hsame q ▸ hrow))
  · refine hinsert hrows (.of_intent id now) ?_ (fun _ hid ↦ ?_) hadmits
    · rw [hdrawn]
      exact List.mem_cons_self
    · rw [hdrawn]
      exact List.mem_cons_of_mem _ hid
  · refine hinsert hrows (hg.updated hallowed hcall hrow hid hversion).2 ?_ (fun _ hid ↦ hdrawn ▸ hid)
      hadmits
    have hsame : (ResourceDb.updatedRow row now call.set).id = row.id := call.set_id row
    rw [hsame, hdrawn]
    exact hg.drawn _ row hrow

theorem Transaction.rely (hg : w.Good) (ht : w.Transaction call r' w') (hallowed : w.Allowed call) :
    Rely w w' := by
  rcases ht.writes with
    ⟨p, id, rfl, ⟨row, -, -, hdb, hdrawn⟩ | ⟨now, hnone, hadmits, -, hdrawn, hrows⟩⟩
    | ⟨r, row, now, hcall, hrow, hid, hversion, hadmits, -, hdrawn, hrows⟩
  · refine ⟨fun id hid ↦ hdrawn ▸ List.mem_cons_of_mem _ hid, fun q row hrow _ ↦ ?_⟩
    rw [row?, hdb] at hrow
    exact ⟨row, hrow, rfl, .inl rfl⟩
  · refine ⟨fun id hid ↦ hdrawn ▸ List.mem_cons_of_mem _ hid, fun q row hrow hold ↦ ?_⟩
    rw [hrows] at hrow
    split_ifs at hrow
    · obtain rfl := Option.some.inj hrow
      exact absurd hold (ht.fresh p id rfl hnone)
    · exact ⟨row, hrow, rfl, .inl rfl⟩
  · refine ⟨fun id hid ↦ hdrawn ▸ hid, fun q row' hrow' _ ↦ ?_⟩
    rw [hrows] at hrow'
    split_ifs at hrow' with hq
    · obtain rfl := Option.some.inj hrow'
      exact ⟨row, hq ▸ hrow, (call.set_id row).symm, .inr ⟨Nat.lt_succ_self _,
        (@Good.updated w call r row now hg hallowed hcall hrow hid hversion).1⟩⟩
    · exact ⟨row', hrow', rfl, .inl rfl⟩

theorem Known.of_row (hrow : w.row? p = some row) (hdrawn : row.id ∈ w.drawn) :
    w.Known (ResourceDb.resource p row) := by
  have hsame {row' : ProjectDatabaseRow} (hrow' : w.row? p = some row') : row' = row :=
    Option.some.inj (hrow'.symm.trans hrow)
  exact ⟨hdrawn, fun row' hrow' _ ↦ (hsame hrow').symm ▸ le_rfl,
    fun row' hrow' _ _ ↦ by rw [hsame hrow']; rfl⟩

/-- What a transaction returns is the row it leaves. -/
theorem Transaction.result (ht : w.Transaction call r' w') :
    ∃ row, w'.row? r'.projectId = some row ∧ r' = ResourceDb.resource r'.projectId row := by
  rcases ht.writes with
    ⟨p, id, rfl, ⟨row, hrow, rfl, hdb, -⟩ | ⟨now, -, -, rfl, -, hrows⟩⟩
    | ⟨r, row, now, -, -, -, -, -, rfl, -, hrows⟩
  · refine ⟨row, ?_, rfl⟩
    rw [row?, hdb]
    exact hrow
  · exact ⟨_, (hrows p).trans (if_pos rfl), rfl⟩
  · exact ⟨_, (hrows r.projectId).trans (if_pos rfl), rfl⟩

theorem Transaction.known (hg : w.Good) (ht : w.Transaction call r' w') (hallowed : w.Allowed call) :
    w'.Known r' := by
  obtain ⟨row, hrow, hr⟩ := ht.result
  exact hr ▸ .of_row hrow ((ht.good hg hallowed).drawn _ row hrow)

/-- What an update makes of a resource that is known. -/
theorem Transaction.update (ht : w.Transaction call r' w') (hcall : call.resource? = some r)
    (hk : w.Known r) : ∃ row now, r = ResourceDb.resource r.projectId row
      ∧ r' = ResourceDb.resource r.projectId (ResourceDb.updatedRow row now call.set) := by
  rcases ht.writes with ⟨p, id, rfl, -⟩
    | ⟨r₁, row, now, hcall', hrow, hid, hversion, -, hr, -⟩
  · cases hcall
  · obtain rfl := Option.some.inj (hcall.symm.trans hcall')
    exact ⟨row, now, (hk.row row hrow hid hversion).symm, hr⟩

/-! ## The pool -/

/-- A step beside the calls: a transaction of somebody else, or a connection that held a lock is
lost. -/
inductive Other (w : ProvisionWorld) : ProvisionWorld → Prop
  | transaction {call : DatabaseCall} {now : ℕ → Time} {db' : Database}
    (hcall : ∀ c, call ≠ .resource c) (hfree : ∀ p ∈ call.locks w.db, w.ProjectFree p)
    (hexec : call.exec w.db.statuses now w.db = .ok db') : Other w { w with db := db' }
  | unlock {resourceLocks projectLocks : List (Uuid × ℕ)}
    (hresource : resourceLocks ⊆ w.resourceLocks) (hproject : projectLocks ⊆ w.projectLocks) :
    Other w { w with resourceLocks := resourceLocks, projectLocks := projectLocks }

/-- The locks a call that has ended leaves. -/
def released (i : ℕ) (w : ProvisionWorld) : ProvisionWorld :=
  { w with
    resourceLocks := w.resourceLocks.filter (·.2 ≠ i)
    projectLocks := w.projectLocks.filter (·.2 ≠ i) }

/-- Calls under names, restricted to the steps that are allowed. -/
def rules (allowed : ProvisionWorld → ProvisionOp → Prop) :
    Pool.Rules ℕ ProvisionWorld ProvisionOp ProvisionOp.Ans Exc ProjectDatabaseRead where
  step i w o r w' := allowed w o ∧ React i w o r w'
  spawn _ program := ∃ (service : ProjectDatabaseService) (p : Uuid), program = service.provision p
  die i w w' := w' = released i w
  other := Other

/-- No failure is recorded in a row that is active. -/
def Calm (w : ProvisionWorld) : ProvisionOp → Prop
  | .resource (.markFailed r _ _) => ∀ row, w.row? r.projectId = some row → row.id = r.id →
    row.stateVersion = r.stateVersion → row.phase ≠ .active
  | _ => True

/-- A call does what is allowed. -/
def Guar (w : ProvisionWorld) : (o : ProvisionOp) → Except Exc o.Ans → ProvisionWorld → Prop
  | .resource o, _, _ => ∀ call, Behind o call → w.Allowed call
  | _, _, _ => True

def proof : Pool.Proof ℕ ProvisionWorld ProvisionOp ProvisionOp.Ans Exc where
  inv := Good
  rely _ := Rely
  guar _ := Guar
  idle _ _ := True

/-- The setting of a call. -/
abbrev setting (i : ℕ) : Setting ProvisionWorld ProvisionOp ProvisionOp.Ans Exc :=
  proof.setting (rules Calm) i

theorem Rely.of_db (hdb : w'.db = w.db) (hdrawn : w'.drawn = w.drawn) : Rely w w' := by
  refine ⟨fun id hid ↦ hdrawn ▸ hid, fun p row hrow _ ↦ ⟨row, ?_, rfl, .inl rfl⟩⟩
  rwa [row?, hdb] at hrow

theorem Good.of_db (hg : w.Good) (hdb : w'.db = w.db) (hdrawn : w'.drawn = w.drawn) : w'.Good := by
  have hrows (p : Uuid) : w'.row? p = w.row? p := by rw [row?, hdb]; rfl
  refine ⟨fun p row hrow ↦ hg.rows p row (hrows p ▸ hrow), fun p row hrow ↦ ?_,
    fun p row hrow ↦ ?_⟩
  · exact hdrawn ▸ hg.drawn p row (hrows p ▸ hrow)
  · rw [table, hdb]
    exact hg.admits p row (hrows p ▸ hrow)

theorem React.transaction {o : ProvisionOp} {a : Except Exc o.Ans} (hr : React i w o a w')
    (hguar : Guar w o a w') : w'.db = w.db ∧ w'.drawn = w.drawn
      ∨ ∃ call r, w.Allowed call ∧ w.Transaction call r w' := by
  cases hr with
  | resource hb hfree ht => exact .inr ⟨_, _, hguar _ hb, ht⟩
  | lost hb hfree ht => exact .inr ⟨_, _, hguar _ hb, ht⟩
  | _ => exact .inl ⟨rfl, rfl⟩

theorem React.rely {o : ProvisionOp} {a : Except Exc o.Ans} (hg : w.Good) (hr : React i w o a w')
    (hguar : Guar w o a w') : Rely w w' := by
  rcases hr.transaction hguar with ⟨hdb, hdrawn⟩ | ⟨call, r, hallowed, ht⟩
  · exact .of_db hdb hdrawn
  · exact ht.rely hg hallowed

theorem React.good {o : ProvisionOp} {a : Except Exc o.Ans} (hg : w.Good) (hr : React i w o a w')
    (hguar : Guar w o a w') : w'.Good := by
  rcases hr.transaction hguar with ⟨hdb, hdrawn⟩ | ⟨call, r, hallowed, ht⟩
  · exact hg.of_db hdb hdrawn
  · exact ht.good hg hallowed

/-- Transactions of others leave rows alone, or take them away. -/
theorem other_row {call : DatabaseCall} {status : Statuses} {now : ℕ → Time} {db db' : Database}
    (h : call.Commits status now db db') (hcall : ∀ c, call ≠ .resource c) {p : Uuid}
    {row : ProjectDatabaseRow} (hrow : db'.databaseResources.lookup p = some row) :
    db.databaseResources.lookup p = some row := by
  cases h with
  | resource => exact absurd rfl (hcall _)
  | deletion h =>
    cases h with
    | @request q c job hproject =>
      unfold Database.markDeleting at hrow
      split at hrow <;> exact hrow
    | @finalize claim =>
      by_cases hp : p = claim.job.projectId
      · rw [hp, Database.eraseProject, AList.lookup_erase] at hrow
        cases hrow
      · rwa [Database.eraseProject, AList.lookup_erase_ne hp] at hrow
    | _ => exact hrow
  | _ => exact hrow

theorem Other.rows (ho : Other w w') :
    w'.drawn = w.drawn ∧ ∀ p row, w'.row? p = some row → w.row? p = some row := by
  cases ho with
  | transaction hcall hfree hexec =>
    exact ⟨rfl, fun p row hrow ↦ other_row (DatabaseCall.exec_ok hexec) hcall hrow⟩
  | unlock => exact ⟨rfl, fun p row hrow ↦ hrow⟩

theorem Other.rely (ho : Other w w') : Rely w w' :=
  ⟨fun _ hid ↦ ho.rows.1 ▸ hid,
    fun p row hrow _ ↦ ⟨row, ho.rows.2 p row hrow, rfl, .inl rfl⟩⟩

theorem Other.good (hg : w.Good) (ho : Other w w') : w'.Good := by
  obtain ⟨hdrawn, hrows⟩ := ho.rows
  refine ⟨fun p row hrow ↦ hg.rows p row (hrows p row hrow),
    fun p row hrow ↦ hdrawn ▸ hg.drawn p row (hrows p row hrow), fun p row hrow ↦ ?_⟩
  have hadmits := hg.admits p row (hrows p row hrow)
  exact ⟨hadmits.fits, hadmits.checks,
    fun q other hq hother ↦ hadmits.apart q other hq (hrows q other hother)⟩

/-! ### The program -/

section Program

/-- The operation writes no row. -/
def Quiet : ProvisionOp → Prop
  | .resource _ => False
  | _ => True

theorem quiet_guar {o : ProvisionOp} (ho : Quiet o) (a : Except Exc o.Ans) : Guar w o a w' := by
  cases o with
  | resource o => exact ho.elim
  | _ => trivial

theorem quiet_preserves {I : ProvisionWorld → Prop} (hI : ∀ w w', I w → Rely w w' → I w') {α : Type}
    {program : Provision α} (hp : program.Uses Quiet) : Preserves (setting i) I program := by
  refine .of_uses (hp.mono fun o ho s s₁ a s₂ hs hrely hstep ↦ ⟨quiet_guar ho a, ?_⟩)
  exact hI _ _ (hI _ _ hs hrely.2) (hstep.2.rely hrely.1 (quiet_guar ho a))

theorem uses_quiet {o : ProvisionOp} (ho : Quiet o) : (Provision.op o).Uses Quiet :=
  Prog.uses_op.mpr ho

theorem Behind.unique {o : ResourceOp} {call call' : ResourceCall} (hb : Behind o call)
    (hb' : Behind o call') (hcall : call.resource? = some r) : call' = call := by
  cases hb with
  | ensureIntent => cases hcall
  | _ => cases hb'; rfl

/-- An update by a call that holds the resource, and what comes back. -/
theorem wp_update {o : ResourceOp} {call : ResourceCall} (ho : Behind o call)
    (hcall : call.resource? = some r) (hallowed : ∀ s : ProvisionWorld, s.Known r → s.Allowed call)
    (hk : w.Known r) : wp (setting i) (Provision.resource o) (fun a s ↦ ∀ r', a = .ok r' →
      s.Known r' ∧ ∃ row now, r = ResourceDb.resource r.projectId row
        ∧ r' = ResourceDb.resource r.projectId (ResourceDb.updatedRow row now call.set)) w := by
  unfold Provision.resource Provision.op
  rw [wp_op]
  rintro s₁ ⟨hg, hrely⟩ a s₂ ⟨-, hstep⟩
  have hk₁ := hk.mono hrely
  refine ⟨fun call' hb ↦ ho.unique hb hcall ▸ hallowed s₁ hk₁, fun r' heq ↦ ?_⟩
  subst heq
  cases hstep with
  | resource hb hfree ht =>
    obtain rfl := ho.unique hb hcall
    exact ⟨ht.known hg (hallowed s₁ hk₁), ht.update hcall hk₁⟩
  | external ho => exact ho.elim

/-- The call holds a resource that was read from its row, with its credential. -/
def Holds (r : ProjectDatabaseResource) (w : ProvisionWorld) : Prop :=
  w.Known r ∧ r.phase ≠ .intentRecorded

theorem holds_mono (w w' : ProvisionWorld) (hr : Holds r w) (hrely : Rely w w') : Holds r w' :=
  ⟨hr.1.mono hrely, hr.2⟩

/-- The postcondition of what returns a resource that the call holds. -/
def Held (a : Except Exc ProjectDatabaseResource) (w : ProvisionWorld) : Prop :=
  ∀ r, a = .ok r → Holds r w

theorem recordSecret_wp (hk : w.Known r) :
    wp (setting i) (ProjectDatabaseService.recordSecret r) Held w := by
  unfold ProjectDatabaseService.recordSecret
  split
  · next hphase =>
    rw [wp_bind]
    refine (quiet_preserves (fun _ _ h hrely ↦ Known.mono h hrely)
      (uses_quiet (by trivial))).apply hk fun a w₁ hk₁ ↦ ?_
    cases a with
    | error x => exact fun _ heq ↦ nomatch heq
    | ok secret =>
      rw [andThen_ok]
      refine wp_mono (wp_update (.recordSecret r secret) rfl (fun _ hk ↦ ⟨hk, hphase⟩) hk₁)
        fun a w₂ ha r' heq ↦ ?_
      obtain ⟨hk', row, now, -, rfl⟩ := ha r' heq
      have hset : ProjectDatabasePhase.secretReady ≠ .intentRecorded := by decide
      exact ⟨hk', hset⟩
  · next hphase =>
    intro r' heq
    obtain rfl := Except.ok.inj heq
    exact ⟨hk, hphase⟩

theorem step_wp {phase next : ProjectDatabasePhase} (hphase : phase ≠ .active)
    (hnext : next ≠ .intentRecorded) {ensure : ProjectDatabaseResource → Provision Unit}
    (hensure : (ensure r).Uses Quiet) (hr : Holds r w) :
    wp (setting i) (ProjectDatabaseService.step phase next ensure r) Held w := by
  unfold ProjectDatabaseService.step
  split
  · next heq =>
    rw [wp_bind]
    refine (quiet_preserves holds_mono hensure).apply hr fun a w₁ hr₁ ↦ ?_
    cases a with
    | error x => exact fun _ heq ↦ nomatch heq
    | ok =>
      rw [andThen_ok]
      refine wp_mono (wp_update (.advance r next) rfl
        (fun _ hk ↦ ⟨hk, hr.2, heq ▸ hphase⟩) hr₁.1) fun a w₂ ha r' hok ↦ ?_
      obtain ⟨hk', row, now, -, rfl⟩ := ha r' hok
      refine ⟨hk', ?_⟩
      change (ResourceCall.set (.advance r next) row).phase ≠ .intentRecorded
      rw [ResourceCall.set]
      split <;> exact hnext
  · intro r' hok
    obtain rfl := Except.ok.inj hok
    exact hr

/-- One step of a chain of programs that hand a resource on. -/
theorem held_bind {α : Type} {program : Provision ProjectDatabaseResource}
    {rest : ProjectDatabaseResource → Provision α} {Q : Except Exc α → ProvisionWorld → Prop}
    (hp : wp (setting i) program Held w) (herror : ∀ x s, Q (.error x) s)
    (hrest : ∀ r s, Holds r s → wp (setting i) (rest r) Q s) :
    wp (setting i) (program >>= rest) Q w := by
  rw [wp_bind]
  refine wp_mono hp fun a s ha ↦ ?_
  cases a with
  | error x => exact herror x s
  | ok r => exact hrest r s (ha r rfl)

theorem reconcile_wp (hk : w.Known r) :
    wp (setting i) (ProjectDatabaseService.reconcile r) (fun _ _ ↦ True) w := by
  refine held_bind (recordSecret_wp hk) (fun _ _ ↦ trivial) fun r s hr ↦ ?_
  rw [wp_bind]
  refine (quiet_preserves holds_mono ?_).apply hr fun a s hr ↦ ?_
  · unfold ProjectDatabaseService.credential
    split
    · exact uses_quiet (by trivial)
    · trivial
  cases a with
  | error x => trivial
  | ok password =>
    refine held_bind (step_wp (by decide) (by decide) (uses_quiet (by trivial)) hr) (fun _ _ ↦ trivial) fun r s hr ↦
      held_bind (step_wp (by decide) (by decide) (uses_quiet (by trivial)) hr) (fun _ _ ↦ trivial) fun r s hr ↦
      held_bind (step_wp (by decide) (by decide) (uses_quiet (by trivial)) hr) (fun _ _ ↦ trivial) fun r s hr ↦ ?_
    exact wp_mono (step_wp (by decide) (by decide) (uses_quiet (by trivial)) hr) fun _ _ _ ↦ trivial

theorem beginRetry_wp (hk : w.Known r) : wp (setting i) (ProjectDatabaseService.beginRetry r)
    (fun a s ↦ ∀ r', a = .ok r' → s.Known r') w := by
  unfold ProjectDatabaseService.beginRetry
  split
  · next hfailed =>
    exact wp_mono (wp_update (.beginRetry r) rfl (fun _ hk ↦ ⟨hk, hfailed⟩) hk)
      fun a s ha r' heq ↦ (ha r' heq).1
  · intro r' heq
    obtain rfl := Except.ok.inj heq
    exact hk

theorem provisionLocked_wp (service : ProjectDatabaseService) (project : Project) (hk : w.Known r) :
    wp (setting i) (service.provisionLocked r project) (fun _ _ ↦ True) w := by
  unfold ProjectDatabaseService.provisionLocked
  split
  · trivial
  rw [wp_bind]
  refine wp_mono (beginRetry_wp hk) fun a s ha ↦ ?_
  cases a with
  | error x => trivial
  | ok r' =>
    rw [andThen_ok, wp_bind]
    refine wp_mono (reconcile_wp (ha r' rfl)) fun a s _ ↦ ?_
    cases a <;> trivial

theorem operationLock_preserves {I : ProvisionWorld → Prop}
    (hI : ∀ w w', I w → Rely w w' → I w') {id : Uuid} {α : Type} {body : Provision α}
    (hbody : Preserves (setting i) I body) :
    Preserves (setting i) I (Provision.operationLock id body) := by
  refine ((quiet_preserves hI (uses_quiet (by trivial))).bind fun _ ↦
    hbody.tryFinally (quiet_preserves hI (uses_quiet (by trivial)))).tryCatch fun x ↦ ?_
  exact .ite (.raise _) (.raise _)

theorem lockedReady_preserves {I : ProvisionWorld → Prop}
    (hI : ∀ w w', I w → Rely w w' → I w') {α : Type} {body : Project → Provision α}
    (hbody : ∀ project, Preserves (setting i) I (body project)) :
    Preserves (setting i) I (Provision.lockedReady p body) := by
  refine ((quiet_preserves hI (uses_quiet (by trivial))).bind fun project ↦
    ((Preserves.ofExcept _).bind hbody).tryFinally
      (quiet_preserves hI (uses_quiet (by trivial)))).tryCatch fun x ↦ ?_
  split <;> exact .raise _

theorem handleFailure_preserves (r : ProjectDatabaseResource) (x : Exc) {α : Type} :
    Preserves (setting i) (fun _ ↦ True) (ProjectDatabaseService.handleFailure p r x : Provision α) := by
  unfold ProjectDatabaseService.handleFailure
  split
  · exact .raise _
  split
  · refine (quiet_preserves (fun _ _ _ _ ↦ trivial) (uses_quiet (by trivial))).bind fun latest ↦
      Preserves.bind (.op ?_) fun _ ↦ .raise _
    -- the step itself is one in which no failure is recorded in an active row
    intro s s₁ a s₂ _ hrely hstep
    refine ⟨fun call hb ↦ ?_, trivial⟩
    cases hb
    exact hstep.1
  · exact .raise _

theorem provision_wp (service : ProjectDatabaseService) (p : Uuid) :
    wp (setting i) (service.provision p) (fun _ _ ↦ True) w := by
  have hquiet {α : Type} {program : Provision α} (hp : program.Uses Quiet) :
      Preserves (setting i) (fun _ ↦ True) program := quiet_preserves (fun _ _ _ _ ↦ trivial) hp
  unfold ProjectDatabaseService.provision
  refine (hquiet ?_).bind (fun project ↦ ?_) w trivial
  · refine ((uses_quiet (by trivial)).tryCatch fun x ↦ ?_).bind fun _ ↦ Prog.uses_ofExcept _
    split <;> trivial
  refine .ite (.raise _) (.ite (.raise _) fun s _ ↦ ?_)
  rw [wp_bind]
  unfold ProjectDatabaseService.ensureIntent Provision.resource Provision.op
  rw [wp_tryCatch, wp_op]
  rintro s₁ ⟨hg, hrely⟩ a s₂ ⟨-, hstep⟩
  refine ⟨fun call hb ↦ by cases hb; trivial, ?_⟩
  cases a with
  | error x =>
    rw [orElse_error]
    split <;> trivial
  | ok r =>
    have hk : s₂.Known r := by
      cases hstep with
      | resource hb hfree ht =>
        cases hb
        exact ht.known hg trivial
      | external ho => exact ho.elim
    have hlocked (project : Project) : Preserves (setting i) (fun s ↦ s.Known r)
        (service.provisionLocked r project) := fun s hk ↦
      wp_mono (wp_frame (fun s s₁ o a s₂ hk hrely hstep hguar ↦
        (hk.mono hrely.2).mono (hstep.2.rely hrely.1 hguar)) (provisionLocked_wp service project hk) hk)
        fun _ _ h ↦ h.2
    rw [orElse_ok, andThen_ok, wp_bind, wp_tryCatch]
    refine (operationLock_preserves (fun _ _ h hrely ↦ Known.mono h hrely)
      (lockedReady_preserves (fun _ _ h hrely ↦ Known.mono h hrely) hlocked)).apply hk fun a s _ ↦ ?_
    cases a with
    | ok result => trivial
    | error x =>
      refine (handleFailure_preserves r x).apply trivial fun a s _ ↦ ?_
      cases a <;> trivial

end Program

/-- **Each call is verified on its own.** -/
theorem valid : proof.Valid (rules Calm) where
  refl _ := Rely.refl
  trans _ _ _ _ := Rely.trans
  idle _ _ _ _ _ := trivial
  spawn i program w hp _ _ := by
    obtain ⟨service, p, rfl⟩ := hp
    exact provision_wp service p
  run i w o a w' hg hstep hguar := ⟨hstep.2.good hg hguar, fun _ _ ↦ hstep.2.rely hg hguar⟩
  die i w w' hg hdie := by
    obtain rfl : w' = released i w := hdie
    exact ⟨hg.of_db rfl rfl, trivial, fun _ _ ↦ .of_db rfl rfl⟩
  other w w' hg hother := ⟨hother.good hg, fun _ ↦ hother.rely⟩

def start : ProvisionWorld := ⟨.empty, [], [], []⟩

theorem Good.start : start.Good := by
  have hnone (p : Uuid) : ProvisionWorld.start.row? p = none := rfl
  constructor
  all_goals
    intro p row hrow
    rw [hnone] at hrow
    cases hrow

/-- A pool of calls. -/
abbrev Calls : Type := Pool ℕ ProvisionWorld ProvisionOp ProvisionOp.Ans Exc ProjectDatabaseRead

/-- The pools that are reached by steps that are allowed. -/
def Reachable (allowed : ProvisionWorld → ProvisionOp → Prop) (pool : Calls) : Prop :=
  Relation.ReflTransGen (Pool.Step (rules allowed)) ⟨start, []⟩ pool

theorem Reachable.sound {pool : Calls} (hr : Reachable Calm pool) :
    Pool.Sound proof (rules Calm) pool :=
  (Pool.Sound.initial Good.start fun _ ↦ trivial).steps valid hr

theorem Reachable.rely {pool pool' : Calls} (hr : Reachable Calm pool)
    (hs : Relation.ReflTransGen (Pool.Step (rules Calm)) pool pool') :
    Rely pool.state pool'.state := by
  refine hr.sound.relates valid Rely.refl (fun _ _ _ ↦ Rely.trans)
    (fun i w o a w' hg hstep hguar ↦ hstep.2.rely hg hguar) (fun i w w' _ hdie ↦ ?_)
    (fun w w' _ hother ↦ hother.rely) hs
  obtain rfl : w' = released i w := hdie
  exact .of_db rfl rfl

/-! ## A call that nothing disturbs -/

/-- What the secret store answers: the version it was asked for, with the fingerprint of a value. -/
def SoundAnswer : (o : ProvisionOp) → o.Ans → Prop
  | .createSecret _ version, secret =>
    secret.version = version ∧ Sha256.isHexdigest secret.fingerprint = true
  | _, _ => True

/-- The world of a call when nothing outside fails: an operation raises only when it cannot succeed
in the state it finds. -/
def Smooth (i : ℕ) : Env ProvisionWorld ProvisionOp ProvisionOp.Ans Exc := fun w o a w' ↦
  React i w o a w' ∧ (∀ b, a = .ok b → SoundAnswer o b)
    ∧ ∀ x, a = .error x → w' = w ∧ ¬ ∃ b w'', React i w o (.ok b) w'' ∧ SoundAnswer o b

/-- The setting of a call that nothing disturbs. -/
abbrev smooth (i : ℕ) : Setting ProvisionWorld ProvisionOp ProvisionOp.Ans Exc :=
  .alone (Smooth i) fun _ _ _ _ ↦ True

/-- How many updates a resource is away from the last phase. -/
def left : ProjectDatabasePhase → ℕ
  | .intentRecorded => 5
  | .secretReady => 4
  | .roleReady => 3
  | .databaseReady => 2
  | .privilegesReady => 1
  | .active => 0

/-- The call holds the row as it is, which has not failed, and the version can be counted up to the
end. -/
structure Going (w : ProvisionWorld) (r : ProjectDatabaseResource) : Prop where
  good : w.Good
  row : w.row? r.projectId = some r.toProjectDatabaseRow
  live : r.status ≠ .failed
  room : r.stateVersion + left r.phase < 2 ^ 31

/-- What the table admits in place of a row. -/
def Storable : ResourceCall → Prop
  | .beginRetry _ | .advance _ _ => True
  | .recordSecret _ _ version fingerprint => version = 1 ∧ Sha256.isHexdigest fingerprint = true
  | _ => False

theorem Storable.admits {db : ResourceDb} (hs : Storable call) (hrow : db.Admits p row)
    (hroom : row.stateVersion + 1 < 2 ^ 31) :
    db.Admits p (ResourceDb.updatedRow row now call.set) := by
  obtain ⟨hfits, hchecks, hapart⟩ := hrow
  simp only [ProjectDatabaseRow.fits, ProjectDatabaseRow.checks, Bool.and_eq_true,
    decide_eq_true_eq] at hfits hchecks
  obtain ⟨⟨⟨⟨⟨⟨hdatabase, hrole⟩, hschema⟩, hversion⟩, -⟩, hstage⟩, hcode⟩ := hfits
  cases call with
  | beginRetry r =>
    refine ⟨?_, ?_, hapart⟩
    · simp only [ProjectDatabaseRow.fits, Bool.and_eq_true, decide_eq_true_eq]
      exact ⟨⟨⟨⟨⟨⟨hdatabase, hrole⟩, hschema⟩, hversion⟩, hroom⟩, rfl⟩, rfl⟩
    · simp only [ProjectDatabaseRow.checks, Bool.and_eq_true]
      exact hchecks
  | recordSecret r reference version fingerprint =>
    obtain ⟨rfl, hhex⟩ := hs
    refine ⟨?_, ?_, hapart⟩
    · simp only [ProjectDatabaseRow.fits, Bool.and_eq_true, decide_eq_true_eq]
      exact ⟨⟨⟨⟨⟨⟨hdatabase, hrole⟩, hschema⟩, rfl⟩, hroom⟩, hstage⟩, hcode⟩
    · simp only [ProjectDatabaseRow.checks, Bool.and_eq_true]
      exact ⟨⟨⟨rfl, hhex⟩, rfl⟩, rfl⟩
  | advance r phase =>
    have hset : ResourceDb.updatedRow row now (ResourceCall.set (.advance r phase))
        = { row with
          phase := phase
          status := if phase = .active then .active else row.status
          stateVersion := row.stateVersion + 1
          updatedAt := now } := by
      unfold ResourceDb.updatedRow ResourceCall.set
      dsimp only
      split <;> rfl
    rw [hset]
    refine ⟨?_, ?_, hapart⟩
    · simp only [ProjectDatabaseRow.fits, Bool.and_eq_true, decide_eq_true_eq]
      exact ⟨⟨⟨⟨⟨⟨hdatabase, hrole⟩, hschema⟩, hversion⟩, hroom⟩, hstage⟩, hcode⟩
    · simp only [ProjectDatabaseRow.checks, Bool.and_eq_true]
      exact hchecks
  | _ => exact hs.elim

theorem Going.known (hr : Going w r) : w.Known r := .of_row hr.row (hr.good.drawn _ _ hr.row)

/-- The postcondition of what leaves an active row and returns it. -/
def Finished (p id : Uuid) (a : Except Exc (ProjectDatabaseResource × List String))
    (w : ProvisionWorld) : Prop :=
  ∃ r names, a = .ok (r, names) ∧ w.row? p = some r.toProjectDatabaseRow ∧ r.id = id
    ∧ r.status = .active ∧ r.phase = .active

theorem Finished.of_db {id : Uuid} {a : Except Exc (ProjectDatabaseResource × List String)}
    (h : Finished p id a w) (hdb : w'.db = w.db) : Finished p id a w' := by
  obtain ⟨r, names, ha, hrow, hrest⟩ := h
  refine ⟨r, names, ha, ?_, hrest⟩
  rw [row?, hdb]
  exact hrow

theorem Finished.orElse {id : Uuid} {a : Except Exc (ProjectDatabaseResource × List String)}
    {handler : Exc → Provision (ProjectDatabaseResource × List String)} (h : Finished p id a w) :
    Effect.orElse (smooth i) handler (Finished p id) a w := by
  have hok := h
  obtain ⟨r, names, rfl, -⟩ := hok
  exact h

theorem Going.finished (hr : Going w r) (hleft : left r.phase ≤ left .active) (names : List String) :
    Finished r.projectId r.id (.ok (r, names)) w := by
  have hphase : r.phase = .active := by cases hcase : r.phase <;> simp_all [left]
  exact ⟨r, names, rfl, hr.row, rfl, (hr.good.rows _ _ hr.row).active.mpr hphase, hphase⟩

variable {project : Project}

/-- The world after a transaction; one that raises leaves no trace. -/
def after (w : ProvisionWorld) (call : ResourceCall) :
    Except Exc ProjectDatabaseResource × ProvisionWorld :=
  match call.exec 0 w.table with
  | .ok (r, view) =>
    (.ok r, { w with db := w.db.putResourceDb view, drawn := call.draws ++ w.drawn })
  | .error x => (.error x, w)

def sampleFingerprint : String :=
  "e3b0c44298fc1c149afbf4c8996fb92427ae41e4649b934ca495991b7852b855"

/-- A world in which everything succeeds, except that the lock of a resource may not be had. -/
def respond (i : ℕ) (locked : Bool) (w : ProvisionWorld) :
    (o : ProvisionOp) → Except Exc o.Ans × ProvisionWorld
  | .project p => (w.db.toProjectDb.get p, w)
  | .lockProject p =>
    match w.db.toProjectDb.get p with
    | .ok project =>
      if w.projectLocks = [] then (.ok project, { w with projectLocks := [(p, i)] })
      else (.error .database, w)
    | .error x => (.error x, w)
  | .unlockProject p => (.ok (), { w with projectLocks := w.projectLocks.erase (p, i) })
  | .lockResource id =>
    if w.resourceLocks = [] ∧ locked = false then (.ok (), { w with resourceLocks := [(id, i)] })
    else (.error .database, w)
  | .unlockResource id => (.ok (), { w with resourceLocks := w.resourceLocks.erase (id, i) })
  | .getForProject p => (.ok (w.table.getForProject p), w)
  | .resource (.ensureIntent p) =>
    if w.projectLocks = [] ∧ ((w.row? p).isSome ∨ w.drawn = []) then
      w.after (.ensureIntent p (.ofNat 7))
    else (.error .database, w)
  | .resource (.beginRetry r) => w.after (.beginRetry r)
  | .resource (.recordSecret r secret) =>
    w.after (.recordSecret r secret.reference secret.version secret.fingerprint)
  | .resource (.advance r phase) => w.after (.advance r phase)
  | .resource (.markFailed r stage code) => w.after (.markFailed r stage code)
  | .createSecret path version => (.ok ⟨path, version, sampleFingerprint⟩, w)
  | .readSecret _ _ => (.ok "password", w)
  | .ensureRole _ _ _ | .ensureDatabase _ _ | .ensurePrivileges _ _ _ | .verifyLogin _ _ _ _ =>
    (.ok (), w)

/-- The world after a call that runs alone. -/
def sampleRun (i : ℕ) (locked : Bool) (w : ProvisionWorld) : ProvisionWorld :=
  let service : ProjectDatabaseService := ⟨⟨"db", 5432⟩, true⟩
  (exec (fun _ w o ↦ ((), respond i locked w o)) (service.provision (.ofNat 1)) () w).2.2

def sampleService : ResolvedService where
  config := { name := "api", build := {}, internalPort := 80, projectDatabaseAccess := true }
  environment := []

def sampleCreated : Database :=
  (DatabaseHistory.start.after (.createProject (.ofNat 1) "app" "https://example/app") id).db

/-- A project with a service that is connected to the managed database. -/
def sampleReady : ProvisionWorld where
  db := (DatabaseHistory.after ⟨sampleCreated, []⟩
    (.updateSettings (.ofNat 1) 0 (deploymentConfig [sampleService] []) []) id).db
  drawn := []
  resourceLocks := []
  projectLocks := []

/-- Its database has been provisioned, and then a second call could not have the lock. -/
def sampleFailed : ProvisionWorld := sampleRun 1 true (sampleRun 0 false sampleReady)

/-- One step of a call that runs alone. -/
theorem Reachable.run {o : ProvisionOp} {k : Except Exc o.Ans → Provision ProjectDatabaseRead}
    {a : Except Exc o.Ans} (hreach : Reachable Calm ⟨w, [(0, .call o k)]⟩) (hcalm : Calm w o)
    (hr : React 0 w o a w') : Reachable Calm ⟨w', [(0, k a)]⟩ :=
  hreach.tail (.run w w' [] [] 0 o k a ⟨hcalm, hr⟩)

end ProvisionWorld

end Heimdall
