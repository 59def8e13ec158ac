import Heimdall.Projects.Deletion

/-!
# The end of a deletion

`finalize_deletion` deletes the rows of a project table by table. Each statement is what PostgreSQL
makes of it under the foreign keys of the migrations: a reference with `ON DELETE CASCADE` takes the
rows that refer to a deleted row along, and any other reference to one makes the statement fail.

In the order in which the statements stand none of them fails, and together they delete what belongs
to the project and nothing else (`finalizeStatements_ok`), provided that a runtime refers to a deployment
of its own project and an artifact to an event of its own deployment. The foreign keys do not say so.
-/

namespace Heimdall

namespace Database

variable (db : Database) (p : Uuid)

/-- The deployment belongs to the project. -/
def isDeploymentOf (d : Uuid) : Bool := (db.deployments.lookup d).any (·.projectId == p)

/-! ## Statements -/

/-- `DELETE FROM project_runtimes` -/
def deleteRuntimes : Database := { db with runtimes := db.runtimes.erase p }

/-- `DELETE FROM public_route_jobs` -/
def deletePublicRouteJobs : Database := { db with routeJobs := db.routeJobs.erase p }

/-- `DELETE FROM project_public_routes`; the job of a route goes with it. -/
def deletePublicRoutes : Database :=
  { db with
    routes := db.routes.erase p
    routeJobs := if (db.routes.lookup p).isSome then db.routeJobs.erase p else db.routeJobs }

/-- `DELETE FROM runtime_reconciliations` -/
def deleteReconciliations : Database :=
  { db with reconciliations := eraseWhere db.reconciliations (db.isDeploymentOf p) }

/-- An event of a deployment that is deleted. -/
def isEventOf (id : ℕ) : Bool :=
  db.deploymentEvents.any fun e ↦ db.isDeploymentOf p e.deploymentId && e.id == id

/-- What is left when the deployments of a project are deleted: jobs, events, reconciliations and
artifacts go with them. -/
def withoutDeployments : Database :=
  { db with
    deployments := eraseWhere db.deployments (db.isDeploymentOf p)
    deploymentJobs := eraseWhere db.deploymentJobs (db.isDeploymentOf p)
    deploymentEvents := db.deploymentEvents.filter fun e ↦ !db.isDeploymentOf p e.deploymentId
    deploymentDiagnostics := db.deploymentDiagnostics.filter fun a ↦
      !(db.isDeploymentOf p a.deploymentId || db.isEventOf p a.eventId)
    reconciliations := eraseWhere db.reconciliations (db.isDeploymentOf p) }

/-- `DELETE FROM deployments`; a runtime does not go with its active deployment. -/
def deleteDeployments : Except Exc Database :=
  if db.runtimes.entries.any fun e ↦ e.2.activeDeploymentId.any (db.isDeploymentOf p) then
    .error .database
  else .ok (db.withoutDeployments p)

/-- `DELETE FROM project_environment_secrets` -/
def deleteEnvironmentSecrets : Database :=
  { db with environmentSecrets := eraseWhere db.environmentSecrets fun key ↦ key.1 == p }

/-- `DELETE FROM project_database_resources` -/
def deleteDatabaseResources : Database :=
  { db with databaseResources := db.databaseResources.erase p }

/-- `DELETE FROM project_deletion_jobs` -/
def deleteDeletionJobs : Database := { db with deletionJobs := db.deletionJobs.erase p }

/-- What is left when the row of a project is deleted: secrets, runtime and route go with it. -/
def withoutProjectRow : Database :=
  { (db.deleteEnvironmentSecrets p).deletePublicRoutes p with
    runtimes := db.runtimes.erase p
    projects := db.projects.erase p }

/-- `DELETE FROM projects … RETURNING id`; a database resource, a deployment or a deletion job does
not go with the project. -/
def deleteProjects : Except Exc (Option Uuid × Database) :=
  if (db.projects.lookup p).isNone then .ok (none, db)
  else if (db.databaseResources.lookup p).isSome ∨ (db.deletionJobs.lookup p).isSome
      ∨ db.deployments.entries.any fun e ↦ e.2.projectId == p then .error .database
  else .ok (some p, db.withoutProjectRow p)

/-- A live claim in the last phase, on a project that is being deleted and has no route left. -/
def Finalizable (claim : ProjectDeletionJobClaim) (now : Time) : Prop :=
  (db.deletionJobs.lookup claim.job.projectId).any (fun job ↦
      holdsDeletion job claim now && job.phase == .metadataDelete)
    ∧ db.statuses claim.job.projectId = some .deleting ∧ db.deletionIsApplied claim.job.projectId

instance (claim : ProjectDeletionJobClaim) (now : Time) : Decidable (db.Finalizable claim now) :=
  inferInstanceAs (Decidable (_ ∧ _ ∧ _))

/-- The statements of `finalize_deletion`. -/
def finalizeStatements (claim : ProjectDeletionJobClaim) (now : Time) : Except Exc Database := do
  let p := claim.job.projectId
  if ¬ db.Finalizable claim now then .error .projectDeletionClaimLost
  else
    let db := (db.deleteRuntimes p).deletePublicRouteJobs p
    let db := (db.deletePublicRoutes p).deleteReconciliations p
    let db ← db.deleteDeployments p
    let db := (db.deleteEnvironmentSecrets p).deleteDatabaseResources p
    match ← (db.deleteDeletionJobs p).deleteProjects p with
    | (some _, db) => .ok db
    | (none, _) => .error .projectDeletionClaimLost

/-- A transaction: what raises is rolled back. -/
def transaction (body : Database → Except Exc Database) : Except Exc Unit × Database :=
  match body db with
  | .ok db' => (.ok (), db')
  | .error x => (.error x, db)

/-! ## References -/

/-- The foreign keys of the migrations. -/
structure References : Prop where
  deployments : ∀ e ∈ db.deployments.entries, (db.projects.lookup e.2.projectId).isSome
  deploymentJobs : ∀ e ∈ db.deploymentJobs.entries, (db.deployments.lookup e.1).isSome
  environmentSecrets : ∀ e ∈ db.environmentSecrets.entries, (db.projects.lookup e.1.1).isSome
  databaseResources : ∀ e ∈ db.databaseResources.entries, (db.projects.lookup e.1).isSome
  deploymentEvents : ∀ e ∈ db.deploymentEvents, (db.deployments.lookup e.deploymentId).isSome
  runtimes : ∀ e ∈ db.runtimes.entries, (db.projects.lookup e.1).isSome
  activeDeployments : ∀ e ∈ db.runtimes.entries, ∀ d ∈ e.2.activeDeploymentId,
    (db.deployments.lookup d).isSome
  reconciliations : ∀ e ∈ db.reconciliations.entries, (db.deployments.lookup e.1).isSome
  diagnostics : ∀ a ∈ db.deploymentDiagnostics, (db.deployments.lookup a.deploymentId).isSome
  diagnosticEvents : ∀ a ∈ db.deploymentDiagnostics, ∃ e ∈ db.deploymentEvents, e.id = a.eventId
  routes : ∀ e ∈ db.routes.entries, (db.projects.lookup e.1).isSome
  routeJobs : ∀ e ∈ db.routeJobs.entries, (db.routes.lookup e.1).isSome
  deletionJobs : ∀ e ∈ db.deletionJobs.entries, (db.projects.lookup e.1).isSome

/-- A runtime has an active deployment of its own project, and an artifact an event of its own
deployment. -/
structure OwnReferences : Prop where
  activeDeployments : ∀ e ∈ db.runtimes.entries, ∀ d ∈ e.2.activeDeploymentId,
    db.isDeploymentOf e.1 d
  diagnosticEvents : ∀ a ∈ db.deploymentDiagnostics, ∀ e ∈ db.deploymentEvents, e.id = a.eventId →
    e.deploymentId = a.deploymentId

/-- Of each table the rows that do not belong to the project are left, as they were. -/
structure WithoutProject (db' : Database) : Prop where
  projects : ∀ q, db'.projects.lookup q = if q = p then none else db.projects.lookup q
  environmentSecrets : ∀ key, db'.environmentSecrets.lookup key
    = if key.1 == p then none else db.environmentSecrets.lookup key
  databaseResources : ∀ q, db'.databaseResources.lookup q
    = if q = p then none else db.databaseResources.lookup q
  deployments : ∀ d, db'.deployments.lookup d
    = if db.isDeploymentOf p d then none else db.deployments.lookup d
  deploymentJobs : ∀ d, db'.deploymentJobs.lookup d
    = if db.isDeploymentOf p d then none else db.deploymentJobs.lookup d
  deploymentEvents : db'.deploymentEvents
    = db.deploymentEvents.filter fun e ↦ !db.isDeploymentOf p e.deploymentId
  diagnostics : db'.deploymentDiagnostics
    = db.deploymentDiagnostics.filter fun a ↦ !db.isDeploymentOf p a.deploymentId
  routes : ∀ q, db'.routes.lookup q = if q = p then none else db.routes.lookup q
  routeJobs : ∀ q, db'.routeJobs.lookup q = if q = p then none else db.routeJobs.lookup q
  reconciliations : ∀ d, db'.reconciliations.lookup d
    = if db.isDeploymentOf p d then none else db.reconciliations.lookup d
  deletionJobs : ∀ q, db'.deletionJobs.lookup q = if q = p then none else db.deletionJobs.lookup q
  runtimes : ∀ q, db'.runtimes.lookup q = if q = p then none else db.runtimes.lookup q

/-! ## The statements in their order -/

section Tables

variable {κ β : Type} [DecidableEq κ] {t t' : AList fun _ : κ ↦ β} {gone : κ → Prop}
  [DecidablePred gone] {e : Sigma fun _ : κ ↦ β} {k : κ}

theorem lookup_erase_eq (t : AList fun _ : κ ↦ β) (k q : κ) :
    (t.erase k).lookup q = if q = k then none else t.lookup q := by
  split
  · next h => rw [h, AList.lookup_erase]
  · next h => rw [AList.lookup_erase_ne h]

/-- What has been erased may be erased again. -/
theorem lookup_erase_again (c : Prop) [Decidable c] {k : κ}
    (h : ∀ q, t'.lookup q = if q = k then none else t.lookup q) (q : κ) :
    (if c then t'.erase k else t').lookup q = if q = k then none else t.lookup q := by
  split
  · rw [lookup_erase_eq, h]
    split <;> rfl
  · exact h q

theorem lookup_eraseWhere_again {gone : κ → Bool}
    (h : ∀ q, t'.lookup q = if gone q then none else t.lookup q) (q : κ) :
    (eraseWhere t' gone).lookup q = if gone q then none else t.lookup q := by
  rw [lookup_eraseWhere, h]
  split <;> rfl

/-- A row that is left was there. -/
theorem mem_of_left (h : ∀ k, t'.lookup k = if gone k then none else t.lookup k)
    (he : e ∈ t'.entries) : e ∈ t.entries ∧ ¬ gone e.1 := by
  have hlookup : t'.lookup e.1 = some e.2 := AList.mem_lookup_iff.mpr he
  rw [h] at hlookup
  split at hlookup
  · cases hlookup
  · next hkept => exact ⟨AList.mem_lookup_iff.mp hlookup, hkept⟩

theorem isSome_of_kept (h : ∀ k, t'.lookup k = if gone k then none else t.lookup k)
    (hk : (t.lookup k).isSome) (hkept : ¬ gone k) : (t'.lookup k).isSome := by
  rwa [h, if_neg hkept]

end Tables

variable {db db' : Database} {p : Uuid} {claim : ProjectDeletionJobClaim} {now : Time}

theorem isDeploymentOf_iff {d : Uuid} : db.isDeploymentOf p d = true
    ↔ ∃ row, db.deployments.lookup d = some row ∧ row.projectId = p := by
  simp [isDeploymentOf, Option.any_eq_true]

/-- Once the runtime of the project is gone, no runtime refers to one of its deployments. -/
theorem deleteDeployments_ok (hown : db.OwnReferences) (hruntime : db.runtimes.lookup p = none) :
    db.deleteDeployments p = .ok (db.withoutDeployments p) := by
  refine if_neg fun hany ↦ ?_
  obtain ⟨e, he, hactive⟩ := List.any_eq_true.mp hany
  obtain ⟨d, hd, hdeployment⟩ := (Option.any_eq_true _ _).mp hactive
  obtain ⟨row, hrow, hproject⟩ := isDeploymentOf_iff.mp (hown.activeDeployments e he d hd)
  obtain ⟨row', hrow', hproject'⟩ := isDeploymentOf_iff.mp hdeployment
  obtain rfl := Option.some.inj (hrow.symm.trans hrow')
  have hlookup : db.runtimes.lookup e.1 = some e.2 := AList.mem_lookup_iff.mpr he
  rw [← hproject, hproject', hruntime] at hlookup
  cases hlookup

/-- Nothing refers to a project without deployments, resource and deletion job. -/
theorem deleteProjects_ok (hproject : (db.projects.lookup p).isSome)
    (hresource : db.databaseResources.lookup p = none) (hjob : db.deletionJobs.lookup p = none)
    (hdeployments : ∀ e ∈ db.deployments.entries, e.2.projectId ≠ p) :
    db.deleteProjects p = .ok (some p, db.withoutProjectRow p) := by
  rw [deleteProjects, if_neg, if_neg]
  · rw [hresource, hjob]
    rintro (hsome | hsome | hany)
    · cases hsome
    · cases hsome
    · obtain ⟨e, he, hp⟩ := List.any_eq_true.mp hany
      exact hdeployments e he (beq_iff_eq.mp hp)
  · rw [Option.isNone_iff_eq_none]
    intro hnone
    rw [hnone] at hproject
    cases hproject

/-- With artifacts of their own events, no artifact of another deployment goes with an event. -/
theorem diagnostics_filter (hown : db.OwnReferences) :
    (db.deploymentDiagnostics.filter fun a ↦
      !(db.isDeploymentOf p a.deploymentId || db.isEventOf p a.eventId))
      = db.deploymentDiagnostics.filter fun a ↦ !db.isDeploymentOf p a.deploymentId := by
  refine List.filter_congr fun a ha ↦ ?_
  cases hevent : db.isEventOf p a.eventId with
  | false => rw [Bool.or_false]
  | true =>
    obtain ⟨e, he, hboth⟩ := List.any_eq_true.mp hevent
    obtain ⟨hdeployment, hid⟩ := Bool.and_eq_true_iff.mp hboth
    rw [← hown.diagnosticEvents a ha e he (beq_iff_eq.mp hid), hdeployment, Bool.true_or]

theorem Finalizable.project (h : db.Finalizable claim now) :
    (db.projects.lookup claim.job.projectId).isSome := by
  have hstatus := h.2.1
  rw [statuses] at hstatus
  obtain ⟨row, hrow, -⟩ := Option.map_eq_some_iff.mp hstatus
  rw [hrow]
  rfl

/-- The statements of a deletion that may be finished all succeed, and delete what belongs to the
project. -/
theorem finalizeStatements_ok (hown : db.OwnReferences) (h : db.Finalizable claim now) :
    ∃ db', db.finalizeStatements claim now = .ok db'
      ∧ db.WithoutProject claim.job.projectId db' := by
  let p := claim.job.projectId
  let db₁ := (((db.deleteRuntimes p).deletePublicRouteJobs p).deletePublicRoutes p).deleteReconciliations p
  have hown₁ : db₁.OwnReferences := by
    refine ⟨fun e he d hd ↦ ?_, hown.diagnosticEvents⟩
    exact hown.activeDeployments e (mem_of_left (lookup_erase_eq _ p) he).1 d hd
  have hdeployments : db₁.deleteDeployments p = .ok (db₁.withoutDeployments p) :=
    deleteDeployments_ok hown₁ (AList.lookup_erase _ _)
  let db₂ := (((db₁.withoutDeployments p).deleteEnvironmentSecrets p).deleteDatabaseResources p).deleteDeletionJobs p
  have hproject : db₂.deleteProjects p = .ok (some p, db₂.withoutProjectRow p) := by
    refine deleteProjects_ok h.project (AList.lookup_erase _ _) (AList.lookup_erase _ _) fun e he hp ↦ ?_
    have hleft : e ∈ db.deployments.entries ∧ ¬ db.isDeploymentOf p e.1 = true :=
      mem_of_left (lookup_eraseWhere _ _) he
    exact hleft.2 (isDeploymentOf_iff.mpr ⟨e.2, AList.mem_lookup_iff.mpr hleft.1, hp⟩)
  refine ⟨db₂.withoutProjectRow p, ?_, ?_⟩
  · rw [finalizeStatements, if_neg (not_not.mpr h)]
    change (db₁.deleteDeployments p >>= fun db ↦ _) = _
    rw [hdeployments]
    change (db₂.deleteProjects p >>= fun r ↦ _) = _
    rw [hproject]
    rfl
  · exact {
      projects := lookup_erase_eq _ p
      environmentSecrets := lookup_eraseWhere_again (lookup_eraseWhere db.environmentSecrets _)
      databaseResources := lookup_erase_eq _ p
      deployments := lookup_eraseWhere _ _
      deploymentJobs := lookup_eraseWhere _ _
      deploymentEvents := rfl
      diagnostics := diagnostics_filter hown₁
      routes := lookup_erase_again True (lookup_erase_eq db.routes p)
      routeJobs := lookup_erase_again _ (lookup_erase_again _ (lookup_erase_eq db.routeJobs p))
      reconciliations := lookup_eraseWhere_again (lookup_eraseWhere db.reconciliations _)
      deletionJobs := lookup_erase_eq _ p
      runtimes := lookup_erase_again True (lookup_erase_eq db.runtimes p) }

/-- What is left refers to nothing that has been deleted. -/
theorem WithoutProject.references (h : db.WithoutProject p db') (hdb : db.References)
    (hown : db.OwnReferences) : db'.References where
  deployments e he := by
    obtain ⟨hmem, hkept⟩ := mem_of_left h.deployments he
    refine isSome_of_kept h.projects (hdb.deployments e hmem) fun hp ↦ hkept ?_
    exact isDeploymentOf_iff.mpr ⟨e.2, AList.mem_lookup_iff.mpr hmem, hp⟩
  deploymentJobs e he := by
    obtain ⟨hmem, hkept⟩ := mem_of_left h.deploymentJobs he
    exact isSome_of_kept h.deployments (hdb.deploymentJobs e hmem) hkept
  environmentSecrets e he := by
    obtain ⟨hmem, hkept⟩ := mem_of_left h.environmentSecrets he
    exact isSome_of_kept h.projects (hdb.environmentSecrets e hmem) fun hp ↦ hkept (beq_iff_eq.mpr hp)
  databaseResources e he := by
    obtain ⟨hmem, hkept⟩ := mem_of_left h.databaseResources he
    exact isSome_of_kept h.projects (hdb.databaseResources e hmem) hkept
  deploymentEvents e he := by
    rw [h.deploymentEvents, List.mem_filter] at he
    exact isSome_of_kept h.deployments (hdb.deploymentEvents e he.1) (by simpa using he.2)
  runtimes e he := by
    obtain ⟨hmem, hkept⟩ := mem_of_left h.runtimes he
    exact isSome_of_kept h.projects (hdb.runtimes e hmem) hkept
  activeDeployments e he d hd := by
    obtain ⟨hmem, hkept⟩ := mem_of_left h.runtimes he
    refine isSome_of_kept h.deployments (hdb.activeDeployments e hmem d hd) fun hdeployment ↦ ?_
    obtain ⟨row, hrow, hproject⟩ := isDeploymentOf_iff.mp (hown.activeDeployments e hmem d hd)
    obtain ⟨row', hrow', hproject'⟩ := isDeploymentOf_iff.mp hdeployment
    obtain rfl := Option.some.inj (hrow.symm.trans hrow')
    exact hkept (hproject.symm.trans hproject')
  reconciliations e he := by
    obtain ⟨hmem, hkept⟩ := mem_of_left h.reconciliations he
    exact isSome_of_kept h.deployments (hdb.reconciliations e hmem) hkept
  diagnostics a ha := by
    rw [h.diagnostics, List.mem_filter] at ha
    exact isSome_of_kept h.deployments (hdb.diagnostics a ha.1) (by simpa using ha.2)
  diagnosticEvents a ha := by
    rw [h.diagnostics, List.mem_filter] at ha
    obtain ⟨e, he, hid⟩ := hdb.diagnosticEvents a ha.1
    refine ⟨e, ?_, hid⟩
    rw [h.deploymentEvents, List.mem_filter, hown.diagnosticEvents a ha.1 e he hid]
    exact ⟨he, ha.2⟩
  routes e he := by
    obtain ⟨hmem, hkept⟩ := mem_of_left h.routes he
    exact isSome_of_kept h.projects (hdb.routes e hmem) hkept
  routeJobs e he := by
    obtain ⟨hmem, hkept⟩ := mem_of_left h.routeJobs he
    exact isSome_of_kept h.routes (hdb.routeJobs e hmem) hkept
  deletionJobs e he := by
    obtain ⟨hmem, hkept⟩ := mem_of_left h.deletionJobs he
    exact isSome_of_kept h.projects (hdb.deletionJobs e hmem) hkept

/-- Deleting from all tables at once leaves the same. -/
theorem eraseProject_without (db : Database) (p : Uuid) :
    db.WithoutProject p (db.eraseProject p) where
  projects := lookup_erase_eq _ p
  environmentSecrets := lookup_eraseWhere _ _
  databaseResources := lookup_erase_eq _ p
  deployments := lookup_eraseWhere _ _
  deploymentJobs := lookup_eraseWhere _ _
  deploymentEvents := rfl
  diagnostics := rfl
  routes := lookup_erase_eq _ p
  routeJobs := lookup_erase_eq _ p
  reconciliations := lookup_eraseWhere _ _
  deletionJobs := lookup_erase_eq _ p
  runtimes := lookup_erase_eq _ p

/-- The statements do what `finalizeDeletion` does at once. -/
theorem finalizeStatements_refines (hown : db.OwnReferences)
    (h : finalizeDeletion db.statuses db claim now = .ok db') :
    db.WithoutProject claim.job.projectId db' ∧ ∃ db'', db.finalizeStatements claim now = .ok db''
      ∧ db.WithoutProject claim.job.projectId db'' := by
  unfold finalizeDeletion at h
  dsimp only at h
  split at h
  · next hfinalizable =>
    obtain rfl := Except.ok.inj h
    exact ⟨eraseProject_without db _, finalizeStatements_ok hown hfinalizable⟩
  · cases h

/-! ## The transaction -/

/-- `finalize_deletion` -/
def finalizeDeletionTransaction (db : Database) (claim : ProjectDeletionJobClaim) (now : Time) :
    Except Exc Unit × Database := db.transaction (·.finalizeStatements claim now)

/-- A live claim in the last phase deletes what belongs to its project and nothing else; every other
one raises and changes nothing. -/
def Finalizes (db : Database) (claim : ProjectDeletionJobClaim) (now : Time) : Prop :=
  (db.Finalizable claim now → (db.finalizeDeletionTransaction claim now).1 = .ok ()
      ∧ db.WithoutProject claim.job.projectId (db.finalizeDeletionTransaction claim now).2
      ∧ (db.finalizeDeletionTransaction claim now).2.References)
    ∧ (¬ db.Finalizable claim now → (∃ x, (db.finalizeDeletionTransaction claim now).1 = .error x)
      ∧ (db.finalizeDeletionTransaction claim now).2 = db)

theorem finalizeDeletionTransaction_finalizes (db : Database) (hdb : db.References)
    (hown : db.OwnReferences) (claim : ProjectDeletionJobClaim) (now : Time) :
    db.Finalizes claim now := by
  constructor
  · intro h
    obtain ⟨db', hok, hwithout⟩ := finalizeStatements_ok hown h
    rw [finalizeDeletionTransaction, transaction, hok]
    exact ⟨rfl, hwithout, hwithout.references hdb hown⟩
  · intro h
    have herror : db.finalizeStatements claim now = .error .projectDeletionClaimLost := by
      rw [finalizeStatements, if_pos h]
    rw [finalizeDeletionTransaction, transaction, herror]
    exact ⟨⟨_, rfl⟩, rfl⟩

/-! ### References between projects -/

/-- The row of a project that is being deleted, or not. -/
def sampleProject (status : ProjectStatus) (name : String) : ProjectRow where
  name := name
  repositoryUrl := "https://example.test/" ++ name
  branch := "main"
  status := status
  configVersion := 1
  deploymentConfig := none
  createdAt := 0
  updatedAt := 0

def sampleDeployment (id project : ℕ) : Deployment where
  id := .ofNat id
  projectId := .ofNat project
  sourceType := .mainHead
  requestedCommitSha := none
  resolvedCommitSha := "0123456789012345678901234567890123456789"
  configVersion := 1
  configSnapshot := .null
  status := .succeeded
  createdAt := 0
  updatedAt := 0
  terminalAt := some 1

def sampleDeletionJob : ProjectDeletionJobRow where
  state := .claimed
  phase := .metadataDelete
  attempts := 1
  availableAt := 0
  leaseOwner := some "worker"
  leaseExpiresAt := some 10
  claimToken := some (.ofNat 9)
  deleteManagedDatabase := false
  createdAt := 0
  updatedAt := 0

def sampleDeletionClaim : ProjectDeletionJobClaim where
  job := { sampleDeletionJob with projectId := .ofNat 1 }
  token := .ofNat 9
  workerId := "worker"
  leaseExpiresAt := 10

/-- Two projects with a deployment each. The first one is being deleted. -/
def twoProjects : Database :=
  { empty with
    projects := ((∅ : AList fun _ : Uuid ↦ ProjectRow).insert (.ofNat 1)
      (sampleProject .deleting "first")).insert (.ofNat 2) (sampleProject .ready "second")
    deployments := ((∅ : AList fun _ : Uuid ↦ Deployment).insert (.ofNat 3)
      (sampleDeployment 3 1)).insert (.ofNat 4) (sampleDeployment 4 2)
    deletionJobs := (∅ : AList fun _ : Uuid ↦ ProjectDeletionJobRow).insert (.ofNat 1)
      sampleDeletionJob }

theorem twoProjects_references : twoProjects.References := by constructor <;> decide

theorem finalizeDeletionTransaction_finalizes_sample : twoProjects.Finalizes sampleDeletionClaim 5 :=
  finalizeDeletionTransaction_finalizes twoProjects twoProjects_references
    (by constructor <;> decide) sampleDeletionClaim 5

/-- The runtime of the second project has the deployment of the first as its active one. -/
def borrowedDeployment : Database :=
  { twoProjects with
    runtimes := (∅ : AList fun _ : Uuid ↦ ProjectRuntime).insert (.ofNat 2) {
      projectId := .ofNat 2
      gatewayContainerName := "gateway"
      previewPort := 8000
      activeDeploymentId := some (.ofNat 3)
      activeNetworkName := some "network"
      updatedAt := 0 } }

/-- An artifact of the deployment of the second project has an event of the first. -/
def borrowedEvent : Database :=
  { twoProjects with
    deploymentEvents := [{
      id := 1
      deploymentId := .ofNat 3
      stage := "BUILD"
      code := "BUILD_FAILED"
      message := "failed"
      createdAt := 0 }]
    deploymentDiagnostics := [{
      id := .ofNat 5
      deploymentId := .ofNat 4
      eventId := 1
      kind := .commandOutput
      failureStage := "BUILD"
      failureCode := "BUILD_FAILED"
      captureStatus := .captured
      captureCode := none
      operation := some "build"
      serviceName := none
      returnCode := some 1
      containerStatus := none
      containerExitCode := none
      lineCount := 0
      byteCount := 0
      truncated := false
      payload := .null
      capturedAt := 0
      expiresAt := 1 }] }

/-- The foreign keys alone are not enough: one of the statements fails, or a row of another project
goes. -/
theorem not_finalizes_borrowed : (borrowedDeployment.References
    ∧ ¬ borrowedDeployment.Finalizes sampleDeletionClaim 5)
    ∧ borrowedEvent.References ∧ ¬ borrowedEvent.Finalizes sampleDeletionClaim 5 := by
  refine ⟨⟨by constructor <;> decide, fun h ↦ ?_⟩, by constructor <;> decide, fun h ↦ ?_⟩
  · obtain ⟨hok, -⟩ := h.1 (by decide)
    exact absurd hok (by decide)
  · obtain ⟨-, hwithout, -⟩ := h.1 (by decide)
    have hlength := congrArg List.length hwithout.diagnostics
    exact absurd hlength (by decide)

end Database

end Heimdall
