import Heimdall.Projects.DeletionRows

/-!
# Sessions

The database with the transactions that are open on it: any number of API requests and workers run
their transactions side by side. A transaction locks the rows of `projects` one by one, reads their
statuses, and commits with what it has read (`databaseStore`). Since a transaction writes the status
of no project it has not locked (`DatabaseCall.exec_statuses`), a run of sessions goes through the
same states as a run of transactions at one instant each (`SessionsReachable.reachable`).

The number of a new project is drawn at random; `created` are the numbers that were drawn, and none is
drawn twice.
-/

namespace Heimdall

open Effect

namespace Database

/-- A deletion takes a deployment and its job together. -/
theorem eraseProject_consistent {db : Database} {status status' : Statuses} (p : Uuid)
    (h : (db.deploymentDb status).Consistent) :
    ((db.eraseProject p).deploymentDb status').Consistent := by
  have hrow {d : Uuid} {row : Deployment}
      (hrow : (db.eraseProject p).deployments.lookup d = some row) :
      db.deployments.lookup d = some row := by
    rw [eraseProject, lookup_eraseWhere] at hrow
    split_ifs at hrow
    exact hrow
  have hjob {d : Uuid} {job : DeploymentJobRow}
      (hjob : (db.eraseProject p).deploymentJobs.lookup d = some job) :
      db.deploymentJobs.lookup d = some job := by
    rw [eraseProject, lookup_eraseWhere] at hjob
    split_ifs at hjob
    exact hjob
  refine ⟨fun d row h₁ ↦ h.ids d row (hrow h₁), fun d ↦ ?_,
    fun d row job h₁ h₂ ↦ h.agree d row job (hrow h₁) (hjob h₂),
    fun d e a b h₁ h₂ ↦ h.oneActive d e a b (hrow h₁) (hrow h₂)⟩
  change (∃ row, (db.eraseProject p).deployments.lookup d = some row)
    ↔ ∃ job, (db.eraseProject p).deploymentJobs.lookup d = some job
  rw [eraseProject, lookup_eraseWhere, lookup_eraseWhere]
  split_ifs
  · simp
  · exact h.exists_iff d

end Database

namespace DatabaseCall

variable {status : Statuses} {now : ℕ → Time} {db db' : Database} {call : DatabaseCall}

/-- What a transaction that commits does to the tables. -/
inductive Commits (status : Statuses) (now : ℕ → Time) (db : Database) : DatabaseCall → Database → Prop
  | createProject {id : Uuid} {name repositoryUrl : String} {row : ProjectRow}
    (hfree : db.projects.lookup id = none) (hstatus : row.status = .draft)
    (hversion : row.configVersion = 0) (hconfig : row.deploymentConfig = none) :
    Commits status now db (.createProject id name repositoryUrl)
      { db with projects := db.projects.insert id row }
  | updateSettings {p : Uuid} {expectedVersion : ℕ} {config : Json.Value}
    {secrets : List ProjectEnvironmentSecret} {old row : ProjectRow}
    {stored : AList fun _ : SecretKey ↦ EnvironmentSecretRow}
    (hold : db.projects.lookup p = some old)
    (hrow : ProjectDb.SettingsRow old row expectedVersion config) :
    Commits status now db (.updateSettings p expectedVersion config secrets)
      { db with projects := db.projects.insert p row, environmentSecrets := stored }
  | deployment {call : DeploymentCall} {eventId : ℕ} {claim : Option DeploymentJobClaim}
    {view : DeploymentDb} (h : call.exec eventId (now 0) (db.deploymentDb status) = .ok (claim, view)) :
    Commits status now db (.deployment call eventId) (db.putDeploymentDb view)
  | route {call : RouteCall} {claim : Option PublicRouteJobClaim} {view : RouteDb}
    (h : call.exec now (db.routeDb status) = .ok (claim, view)) :
    Commits status now db (.route call) (db.putRouteDb view)
  | reconciliation {call : ReconciliationCall} {claim : Option RuntimeReconciliationClaim}
    {view : ReconciliationDb} (h : call.exec (now 0) (db.reconciliationDb status) = .ok (claim, view)) :
    Commits status now db (.reconciliation call) (db.putReconciliationDb view)
  | resource {call : ResourceCall} {r : ProjectDatabaseResource} {view : ResourceDb}
    (h : call.exec (now 0) (db.resourceDb status) = .ok (r, view)) :
    Commits status now db (.resource call) (db.putResourceDb view)
  | deletion {call : DeletionCall} {claim : Option ProjectDeletionJobClaim} {db' : Database}
    (h : call.Commits status now db claim db') : Commits status now db (.deletion call) db'
  | runtime {p : Uuid} {row : ProjectRuntime} :
    Commits status now db (.runtime p row) { db with runtimes := db.runtimes.insert p row }
  | purgeDiagnostics {expired : List Uuid} : Commits status now db (.purgeDiagnostics expired)
    { db with deploymentDiagnostics := db.deploymentDiagnostics.filter (·.id ∉ expired) }

theorem exec_ok (h : call.exec status now db = .ok db') : call.Commits status now db db' := by
  cases call with
  | createProject id name repositoryUrl =>
    obtain ⟨⟨project, view⟩, hr, rfl⟩ := map_eq_ok h
    obtain ⟨hfree, row, hstatus, hversion, hconfig, rfl⟩ := ProjectDb.create_ok hr
    exact .createProject hfree hstatus hversion hconfig
  | updateSettings p expectedVersion config secrets =>
    obtain ⟨⟨project, view⟩, hr, rfl⟩ := map_eq_ok h
    obtain ⟨old, row, hold, hrow, -, hprojects, hresources⟩ := ProjectDb.updateSettings_row hr
    have heq : db.putProjectDb view = { db with
        projects := db.projects.insert p row, environmentSecrets := view.environmentSecrets } := by
      rw [Database.putProjectDb, ← hprojects, ← hresources]
    rw [heq]
    exact .updateSettings hold hrow
  | deployment call eventId =>
    obtain ⟨⟨claim, view⟩, hr, rfl⟩ := map_eq_ok h
    exact .deployment hr
  | route call =>
    obtain ⟨⟨claim, view⟩, hr, rfl⟩ := map_eq_ok h
    exact .route hr
  | reconciliation call =>
    obtain ⟨⟨claim, view⟩, hr, rfl⟩ := map_eq_ok h
    exact .reconciliation hr
  | resource call =>
    obtain ⟨⟨r, view⟩, hr, rfl⟩ := map_eq_ok h
    exact .resource hr
  | deletion call =>
    obtain ⟨⟨claim, db₁⟩, hr, rfl⟩ := map_eq_ok h
    exact .deletion (DeletionCall.exec_ok hr)
  | runtime p row =>
    cases h
    exact .runtime
  | purgeDiagnostics expired =>
    cases h
    exact .purgeDiagnostics

/-- What becomes of the status of a project: a new project gets one, new settings and the request of a
deletion change it, and it ends with the project. -/
theorem Commits.statuses (h : call.Commits status now db db') (q : Uuid) :
    db'.statuses q = db.statuses q
      ∨ (∃ name repositoryUrl, call = .createProject q name repositoryUrl ∧ db.statuses q = none
        ∧ db'.statuses q = some .draft)
      ∨ (∃ expectedVersion config secrets, call = .updateSettings q expectedVersion config secrets
        ∧ (db.statuses q).isSome = true ∧ db.statuses q ≠ some .deleting
        ∧ db'.statuses q = some .ready)
      ∨ (∃ c, call = .deletion (.request q c) ∧ (status q).isSome = true
        ∧ (db.statuses q).isSome = true ∧ db'.statuses q = some .deleting)
      ∨ ∃ claim, call = .deletion (.finalize claim) ∧ q = claim.job.projectId
        ∧ status q = some .deleting ∧ db' = db.eraseProject q := by
  have hinsert {p : Uuid} {row : ProjectRow} {db₁ : Database}
      (h : db₁.projects = db.projects.insert p row) :
      db₁.statuses q = if q = p then some row.status else db.statuses q := by
    rw [Database.statuses, h, lookup_insert']
    split_ifs <;> rfl
  cases h with
  | @createProject id name repositoryUrl row hfree hstatus =>
    by_cases hq : q = id
    · subst hq
      refine .inr (.inl ⟨name, repositoryUrl, rfl, ?_, ?_⟩)
      · rw [Database.statuses, hfree]
        rfl
      · rw [hinsert rfl, if_pos rfl, hstatus]
    · exact .inl ((hinsert rfl).trans (if_neg hq))
  | @updateSettings p expectedVersion config secrets old row stored hold hrow =>
    by_cases hq : q = p
    · subst hq
      have hstatus : db.statuses q = some old.status := by rw [Database.statuses, hold]; rfl
      refine .inr (.inr (.inl ⟨_, _, _, rfl, by rw [hstatus]; rfl, fun hdeleting ↦ ?_, ?_⟩))
      · exact hrow.live (Option.some.inj (hstatus.symm.trans hdeleting))
      · rw [hinsert rfl, if_pos rfl, hrow.status]
    · exact .inl ((hinsert rfl).trans (if_neg hq))
  | deletion h =>
    cases h with
    | @request p c job hproject =>
      have hmark := Database.statuses_markDeleting db p q (now 0)
      by_cases hq : q = p ∧ (db.statuses p).isSome = true
      · obtain ⟨rfl, hsome⟩ := hq
        rw [if_pos ⟨rfl, hsome⟩] at hmark
        exact .inr (.inr (.inr (.inl ⟨c, rfl, hproject, hsome, hmark⟩)))
      · exact .inl (hmark.trans (if_neg hq))
    | @finalize claim old hold hheld hphase hstatus hroute =>
      by_cases hq : q = claim.job.projectId
      · exact .inr (.inr (.inr (.inr ⟨claim, rfl, hq, hq ▸ hstatus, by rw [hq]⟩)))
      · left
        simp [Database.statuses, Database.eraseProject, AList.lookup_erase_ne hq]
    | _ => exact .inl rfl
  | _ => exact .inl rfl

/-- **The frame of a transaction.** It changes the status of no project it has not locked. -/
theorem exec_statuses (h : call.exec status now db = .ok db') {q : Uuid} (hq : q ∉ call.locks db) :
    db'.statuses q = db.statuses q := by
  rcases (exec_ok h).statuses q with hsame | ⟨name, repositoryUrl, rfl, -⟩ | ⟨_, _, _, rfl, -⟩
    | ⟨c, rfl, -⟩ | ⟨claim, rfl, rfl, -⟩
  · exact hsame
  all_goals exact absurd (List.mem_singleton.mpr rfl) hq

theorem Commits.consistent {status₁ status₂ : Statuses} (h : call.Commits status now db db')
    (hdb : (db.deploymentDb status₁).Consistent) : (db'.deploymentDb status₂).Consistent := by
  cases h with
  | deployment h =>
    have hview : DeploymentDb.Consistent (db.deploymentDb status) :=
      ⟨hdb.ids, hdb.exists_iff, hdb.agree, hdb.oneActive⟩
    have hview := (DeploymentCall.exec_ok hview h).consistent hview
    exact ⟨hview.ids, hview.exists_iff, hview.agree, hview.oneActive⟩
  | deletion h =>
    cases h with
    | @request q c job hproject =>
      unfold Database.markDeleting
      split <;> exact ⟨hdb.ids, hdb.exists_iff, hdb.agree, hdb.oneActive⟩
    | @finalize claim => exact Database.eraseProject_consistent _ hdb
    | _ => exact ⟨hdb.ids, hdb.exists_iff, hdb.agree, hdb.oneActive⟩
  | _ => exact ⟨hdb.ids, hdb.exists_iff, hdb.agree, hdb.oneActive⟩

/-- What becomes of the configuration of a project: it has none at first, and new settings replace
it. -/
theorem Commits.configs (h : call.Commits status now db db') {q : Uuid} {row : ProjectRow}
    (hrow : db'.projects.lookup q = some row) :
    (∃ old, db.projects.lookup q = some old ∧ row.configVersion = old.configVersion
        ∧ row.deploymentConfig = old.deploymentConfig
        ∧ ∀ version config secrets, call ≠ .updateSettings q version config secrets)
      ∨ (∃ name repositoryUrl, call = .createProject q name repositoryUrl
        ∧ row.deploymentConfig = none)
      ∨ ∃ old expectedVersion config secrets,
        call = .updateSettings q expectedVersion config secrets
          ∧ db.projects.lookup q = some old ∧ ProjectDb.SettingsRow old row expectedVersion config := by
  cases h with
  | createProject hfree hstatus hversion hconfig =>
    rw [lookup_insert'] at hrow
    split_ifs at hrow with hq
    · obtain rfl := Option.some.inj hrow
      exact .inr (.inl ⟨_, _, by rw [hq], hconfig⟩)
    · exact .inl ⟨row, hrow, rfl, rfl, by simp⟩
  | updateSettings hold hnew =>
    rw [lookup_insert'] at hrow
    split_ifs at hrow with hq
    · obtain rfl := Option.some.inj hrow
      exact .inr (.inr ⟨_, _, _, _, by rw [hq], hq ▸ hold, hnew⟩)
    · refine .inl ⟨row, hrow, rfl, rfl, fun version config secrets heq ↦ hq ?_⟩
      exact (DatabaseCall.updateSettings.inj heq).1.symm
  | deletion h =>
    cases h with
    | @request p c job hproject =>
      refine .inl ?_
      unfold Database.markDeleting at hrow
      split at hrow
      · next old hold =>
        rw [lookup_insert'] at hrow
        split_ifs at hrow with hq
        · obtain rfl := Option.some.inj hrow
          exact ⟨old, hq ▸ hold, rfl, rfl, by simp⟩
        · exact ⟨row, hrow, rfl, rfl, by simp⟩
      · exact ⟨row, hrow, rfl, rfl, by simp⟩
    | @finalize claim =>
      have hne : q ≠ claim.job.projectId := fun hq ↦ by
        rw [hq, Database.eraseProject, AList.lookup_erase] at hrow
        cases hrow
      rw [Database.eraseProject, AList.lookup_erase_ne hne] at hrow
      exact .inl ⟨row, hrow, rfl, rfl, by simp⟩
    | _ => exact .inl ⟨row, hrow, rfl, rfl, by simp⟩
  | _ => exact .inl ⟨row, hrow, rfl, rfl, by simp⟩

/-- Where a deployment comes from: it was there before, with the same snapshot, or it is created. -/
theorem Commits.origin {status₁ : Statuses} (h : call.Commits status now db db')
    (hdb : (db.deploymentDb status₁).Consistent) {d : Uuid} {row : Deployment}
    (hrow : db'.deployments.lookup d = some row) :
    (∃ old, db.deployments.lookup d = some old ∧ DeploymentDb.Frozen old row)
      ∨ ∃ request eventId, call = .deployment (.create d request) eventId
        ∧ row.projectId = request.projectId ∧ row.configVersion = request.configVersion
        ∧ row.configSnapshot = request.configSnapshot := by
  have hsame (hold : db.deployments.lookup d = some row) :
      ∃ old, db.deployments.lookup d = some old ∧ DeploymentDb.Frozen old row :=
    ⟨row, hold, .refl row⟩
  cases h with
  | @deployment call eventId claim view h =>
    have hview : DeploymentDb.Consistent (db.deploymentDb status) :=
      ⟨hdb.ids, hdb.exists_iff, hdb.agree, hdb.oneActive⟩
    refine (DeploymentCall.exec_origin hview h hrow).imp id fun ⟨request, hcall, hrest⟩ ↦ ?_
    exact ⟨request, eventId, by rw [hcall], hrest⟩
  | deletion h =>
    cases h with
    | @request p c job hproject =>
      refine .inl (hsame ?_)
      unfold Database.markDeleting at hrow
      split at hrow <;> exact hrow
    | @finalize claim =>
      rw [Database.eraseProject, lookup_eraseWhere] at hrow
      split_ifs at hrow
      exact .inl (hsame hrow)
    | _ => exact .inl (hsame hrow)
  | _ => exact .inl (hsame hrow)

/-- The numbers of projects a transaction draws. -/
def draws : DatabaseCall → List Uuid
  | .createProject id _ _ => [id]
  | _ => []

end DatabaseCall

/-- The database with the numbers of projects that were drawn. -/
structure DatabaseHistory where
  db : Database
  created : List Uuid

/-- A transaction commits. -/
structure DatabaseCommit (status : Statuses) (call : DatabaseCall) (h h' : DatabaseHistory) : Prop where
  fresh : ∀ id ∈ call.draws, id ∉ h.created
  created : h'.created = call.draws ++ h.created
  exec : ∃ now, call.exec status now h.db = .ok h'.db

theorem DatabaseCommit.commits {status : Statuses} {call : DatabaseCall} {h h' : DatabaseHistory}
    (hc : DatabaseCommit status call h h') : ∃ now, call.Commits status now h.db h'.db :=
  hc.exec.imp fun _ hexec ↦ DatabaseCall.exec_ok hexec

/-- The database, with the transactions that are allowed. -/
def databaseStore (allowed : DatabaseCall → Prop) :
    LockedStore DatabaseHistory Uuid (Option ProjectStatus) DatabaseCall where
  row h := h.db.statuses
  needs h call := {p | p ∈ call.locks h.db}
  commit status call h h' := allowed call ∧ DatabaseCommit status call h h'
  frame := by
    rintro call h h' ⟨-, -, -, now, hexec⟩ p hp
    exact DatabaseCall.exec_statuses hexec hp

namespace DatabaseHistory

def start : DatabaseHistory := ⟨.empty, []⟩

/-- One transaction at one instant. -/
def Step (allowed : DatabaseCall → Prop) (h h' : DatabaseHistory) : Prop :=
  ∃ call, allowed call ∧ DatabaseCommit h.db.statuses call h h'

/-- What transactions at one instant each can lead to. -/
def Reachable (allowed : DatabaseCall → Prop) (h : DatabaseHistory) : Prop :=
  Relation.ReflTransGen (Step allowed) start h

/-- The database after a transaction that runs alone; one that raises leaves no trace. -/
def after (h : DatabaseHistory) (call : DatabaseCall) (now : ℕ → Time) : DatabaseHistory :=
  match call.exec h.db.statuses now h.db with
  | .ok db => ⟨db, call.draws ++ h.created⟩
  | .error _ => h

end DatabaseHistory

/-- The database with the transactions that are open on it. -/
abbrev Sessions : Type := Locked DatabaseHistory Uuid (Option ProjectStatus) DatabaseCall

namespace Sessions

variable {allowed : DatabaseCall → Prop} {L L' : Sessions}

/-- One step of one transaction. -/
abbrev Step (allowed : DatabaseCall → Prop) (L L' : Sessions) : Prop :=
  Locked.Step (databaseStore allowed) L L'

def Reachable (allowed : DatabaseCall → Prop) (L : Sessions) : Prop :=
  Relation.ReflTransGen (Step allowed) ⟨.start, []⟩ L

theorem Reachable.faithful (h : Reachable allowed L) : Locked.Faithful (databaseStore allowed) L :=
  (Locked.Faithful.initial _).steps h

/-- Open transactions lead to no other states than transactions at one instant. -/
theorem steps_history (hf : Locked.Faithful (databaseStore allowed) L)
    (hs : Relation.ReflTransGen (Step allowed) L L') :
    Relation.ReflTransGen (DatabaseHistory.Step allowed) L.state L'.state :=
  Locked.atomic hf hs

/-- A transaction that runs alone. -/
theorem step_alone {h h' : DatabaseHistory} {call : DatabaseCall} (hallowed : allowed call)
    (hc : DatabaseCommit h.db.statuses call h h') :
    Relation.ReflTransGen (Step allowed) ⟨h, []⟩ ⟨h', []⟩ :=
  Locked.of_atomic (fun _ (hk : _ ∈ call.locks h.db) ↦ hk) ⟨hallowed, hc⟩

theorem steps_after (h : DatabaseHistory) {call : DatabaseCall} (now : ℕ → Time)
    (hallowed : allowed call) (hfresh : ∀ id ∈ call.draws, id ∉ h.created) :
    Relation.ReflTransGen (Step allowed) ⟨h, []⟩ ⟨h.after call now, []⟩ := by
  unfold DatabaseHistory.after
  split
  · next db hexec => exact step_alone hallowed ⟨hfresh, rfl, now, hexec⟩
  · exact .refl

theorem Reachable.history (h : Reachable allowed L) : L.state.Reachable allowed :=
  steps_history (Locked.Faithful.initial _) h

end Sessions

/-! ## A sample run -/

/-- A project has been created. -/
def sampleProject : DatabaseHistory :=
  DatabaseHistory.start.after (.createProject (.ofNat 1) "app" "https://example/app") id

def sampleDeletionJob : ProjectDeletionJobRow where
  state := .pending
  phase := .requested
  availableAt := 0
  deleteManagedDatabase := false
  createdAt := 0
  updatedAt := 0

/-- The deletion of the project has been requested. -/
def sampleDeletion : DatabaseHistory :=
  ⟨{ sampleProject.db.markDeleting (.ofNat 1) 0 with
      deletionJobs := sampleProject.db.deletionJobs.insert (.ofNat 1) sampleDeletionJob },
    sampleProject.created⟩

theorem reachable_sampleDeletion : Sessions.Reachable (fun _ ↦ True) ⟨sampleDeletion, []⟩ := by
  have hproject : Sessions.Reachable (fun _ ↦ True) ⟨sampleProject, []⟩ :=
    Sessions.steps_after _ id trivial (by simp [DatabaseHistory.start])
  have hconfirmed : Database.validateDeletionConfirmation (.ofNat 1)
      (sampleProject.db.hasManagedDatabase (.ofNat 1)) ⟨(Uuid.ofNat 1).str, false, none⟩ = .ok () := by
    rw [Database.validateDeletionConfirmation, if_neg (not_not.mpr rfl)]
    rfl
  have hexec : DatabaseCall.exec sampleProject.db.statuses id sampleProject.db
      (.deletion (.request (.ofNat 1) ⟨(Uuid.ofNat 1).str, false, none⟩)) = .ok sampleDeletion.db := by
    rw [DatabaseCall.exec, DeletionCall.exec, Database.requestDeletion, hconfirmed]
    rfl
  exact hproject.trans (Sessions.step_alone trivial
    ⟨by simp [DatabaseCall.draws], rfl, id, hexec⟩)

end Heimdall
