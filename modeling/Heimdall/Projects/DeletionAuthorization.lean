import Heimdall.Sessions

/-!
# What a deletion job authorizes

A deletion job has a flag that says whether the managed database of the project is to be deleted as
well. The flag is written once, when the deletion is requested, and workers compare it with what they
find. It stays right: the request locks the project and marks it as being deleted, and a database is
only requested for a project that is not.
-/

namespace Heimdall

open Effect

namespace Database

/-- `_validated_database_resource` of the deletion worker. -/
def validatedDatabaseResource (db : Database) (job : ProjectDeletionJob) :
    Except Exc (Option ProjectDatabaseResource) :=
  let resource := (db.resourceDb db.statuses).getForProject job.projectId
  if resource.isSome ≠ job.deleteManagedDatabase then
    .error (.runtimeFailure {
      stage := "DELETION"
      code := "PROJECT_DATABASE_AUTHORIZATION_MISMATCH"
      retryable := false
      cleanupCandidate := false })
  else .ok resource

/-- What holds of the deletion jobs. -/
structure Authorized (db : Database) : Prop where
  checked : DeletionCall.Checked db
  flag : ∀ p job, db.deletionJobs.lookup p = some job →
    job.deleteManagedDatabase = db.hasManagedDatabase p
  deleting : ∀ p job, db.deletionJobs.lookup p = some job → db.statuses p = some .deleting

variable {db db' : Database}

theorem Authorized.empty : Authorized .empty := by
  have hnone (p : Uuid) : Database.empty.deletionJobs.lookup p = none := rfl
  constructor <;> intro p job h <;> rw [hnone] at h <;> cases h

/-- A transaction that leaves the jobs alone, and what they are about. -/
theorem Authorized.frame (h : db.Authorized) (hjobs : db'.deletionJobs = db.deletionJobs)
    (hresources : ∀ p job, db.deletionJobs.lookup p = some job →
      db'.hasManagedDatabase p = db.hasManagedDatabase p)
    (hstatuses : ∀ p job, db.deletionJobs.lookup p = some job → db'.statuses p = db.statuses p) :
    db'.Authorized := by
  constructor <;> intro p job hjob <;> rw [hjobs] at hjob
  · exact h.checked p job hjob
  · exact (h.flag p job hjob).trans (hresources p job hjob).symm
  · exact (hstatuses p job hjob).trans (h.deleting p job hjob)

/-- A transaction that writes the row of one job. -/
theorem Authorized.write (h : db.Authorized) {p : Uuid} {old new : ProjectDeletionJobRow}
    (hold : db.deletionJobs.lookup p = some old)
    (hflag : new.deleteManagedDatabase = old.deleteManagedDatabase) (hchecks : new.checks = true) :
    Authorized { db with deletionJobs := db.deletionJobs.insert p new } := by
  constructor <;> intro q job hjob <;> rw [lookup_insert'] at hjob <;> split_ifs at hjob with hq
  · exact Option.some.inj hjob ▸ hchecks
  · exact h.checked q job hjob
  · cases hq
    cases hjob
    exact hflag.trans (h.flag _ old hold)
  · exact h.flag q job hjob
  · exact hq ▸ h.deleting p old hold
  · exact h.deleting q job hjob

end Database

open Database

variable {status : Statuses} {now : ℕ → Time} {db db' : Database}

theorem DeletionCall.Commits.authorized {call : DeletionCall}
    {claim : Option ProjectDeletionJobClaim} (h : call.Commits db.statuses now db claim db')
    (hdb : db.Authorized) : db'.Authorized := by
  cases h with
  | idle => exact hdb
  | @request p c job hproject hfree hflag hphase hstate hchecks =>
    have hstatuses (q : Uuid) := statuses_markDeleting db p q (now 0)
    constructor <;> intro q job' hjob <;> rw [lookup_insert'] at hjob <;>
      split_ifs at hjob with hq
    · exact Option.some.inj hjob ▸ hchecks
    · exact hdb.checked q job' hjob
    · cases hq
      cases hjob
      rw [hflag]
      unfold hasManagedDatabase markDeleting
      split <;> rfl
    · refine (hdb.flag q job' hjob).trans ?_
      unfold hasManagedDatabase markDeleting
      split <;> rfl
    · exact (hstatuses q).trans (if_pos ⟨hq, hproject⟩)
    · refine (hstatuses q).trans ?_
      rw [hdb.deleting q job' hjob]
      split <;> rfl
  | retry hold hfailed hflag hphase hstate hchecks => exact hdb.write hold hflag hchecks
  | claimNext hold hdue hflag hphase hstate htoken hjob hclaim hchecks =>
    exact hdb.write hold hflag hchecks
  | move hclaim hold hheld hmoves hchecks => exact hdb.write hold hmoves.flag hchecks
  | @finalize claim old hold hheld hphase hstatus hroute =>
    have hjobs : ∀ q job, (db.eraseProject claim.job.projectId).deletionJobs.lookup q = some job →
        q ≠ claim.job.projectId ∧ db.deletionJobs.lookup q = some job := by
      intro q job hjob
      by_cases hq : q = claim.job.projectId
      · rw [hq, eraseProject, AList.lookup_erase] at hjob
        cases hjob
      · exact ⟨hq, by rwa [eraseProject, AList.lookup_erase_ne hq] at hjob⟩
    constructor <;> intro q job hjob <;> obtain ⟨hq, hjob⟩ := hjobs q job hjob
    · exact hdb.checked q job hjob
    · rw [hdb.flag q job hjob, hasManagedDatabase, hasManagedDatabase, eraseProject,
        AList.lookup_erase_ne hq]
    · rw [← hdb.deleting q job hjob, statuses, statuses, eraseProject, AList.lookup_erase_ne hq]

theorem ResourceCall.hasManagedDatabase_eq {call : ResourceCall} {t : Time}
    {r : ProjectDatabaseResource × ResourceDb}
    (h : call.exec t (db.resourceDb db.statuses) = .ok r) {q : Uuid}
    (hq : db.statuses q = some .deleting) :
    (db.putResourceDb r.2).hasManagedDatabase q = db.hasManagedDatabase q := by
  have hupdate {r₁ r₂ : ProjectDatabaseResource} {view : ResourceDb}
      {set : ProjectDatabaseRow → ProjectDatabaseRow}
      (h : (db.resourceDb db.statuses).update r₁ t set = .ok (r₂, view)) :
      (db.putResourceDb view).hasManagedDatabase q = db.hasManagedDatabase q := by
    obtain ⟨row, hrow, -, -, -, -, rfl⟩ := ResourceDb.update_ok h
    change ((db.databaseResources.insert r₁.projectId _).lookup q).isSome
      = (db.databaseResources.lookup q).isSome
    rw [lookup_insert']
    split_ifs with hne
    · rw [hne, show db.databaseResources.lookup r₁.projectId = some row from hrow]
      rfl
    · rfl
  cases call with
  | ensureIntent p id =>
    obtain ⟨hlive, ⟨heq, -⟩ | ⟨-, -, -, -, heq⟩⟩ := ResourceDb.ensureIntent_ok h
    · rw [heq]
      rfl
    · have hne : q ≠ p := fun hqp ↦ hlive (hqp ▸ hq)
      rw [heq]
      change ((db.databaseResources.insert p _).lookup q).isSome
        = (db.databaseResources.lookup q).isSome
      rw [AList.lookup_insert_ne hne]
  | beginRetry => exact hupdate h
  | recordSecret => exact hupdate h
  | advance => exact hupdate h
  | markFailed => exact hupdate h

theorem DatabaseCommit.authorized {call : DatabaseCall} {h h' : DatabaseHistory}
    (hc : DatabaseCommit h.db.statuses call h h') (hdb : h.db.Authorized) : h'.db.Authorized := by
  obtain ⟨now, hexec⟩ := hc.exec
  have hframe : ∀ p ∉ call.locks h.db, h'.db.statuses p = h.db.statuses p :=
    fun p hp ↦ DatabaseCall.exec_statuses hexec hp
  cases call with
  | createProject id name repositoryUrl =>
    obtain ⟨r, hr, heq⟩ := map_eq_ok hexec
    obtain ⟨hnone, row, -, -, -, hr⟩ := ProjectDb.create_ok hr
    refine hdb.frame (by rw [← heq]; rfl) (fun p job hjob ↦ ?_) fun p job hjob ↦ hframe p ?_
    · rw [← heq, hr]
      rfl
    · have hdeleting := hdb.deleting p job hjob
      intro hp
      rw [List.mem_singleton.mp hp, Database.statuses, hnone] at hdeleting
      cases hdeleting
  | updateSettings p expectedVersion config secrets =>
    obtain ⟨r, hr, heq⟩ := map_eq_ok hexec
    obtain ⟨old, row, hold, hrow, -, hprojects, hresources⟩ := ProjectDb.updateSettings_row hr
    refine hdb.frame (by rw [← heq]; rfl) (fun q job hjob ↦ ?_) fun q job hjob ↦ hframe q ?_
    · rw [← heq]
      exact congrArg (fun t ↦ (t.lookup q).isSome) hresources
    · have hdeleting := hdb.deleting q job hjob
      intro hq
      rw [List.mem_singleton.mp hq, Database.statuses, hold] at hdeleting
      exact hrow.live (Option.some.inj hdeleting)
  | deployment call eventId =>
    obtain ⟨r, hr, heq⟩ := map_eq_ok hexec
    rw [← heq]
    exact hdb.frame rfl (fun _ _ _ ↦ rfl) fun _ _ _ ↦ rfl
  | route call =>
    obtain ⟨r, hr, heq⟩ := map_eq_ok hexec
    rw [← heq]
    exact hdb.frame rfl (fun _ _ _ ↦ rfl) fun _ _ _ ↦ rfl
  | reconciliation call =>
    obtain ⟨r, hr, heq⟩ := map_eq_ok hexec
    rw [← heq]
    exact hdb.frame rfl (fun _ _ _ ↦ rfl) fun _ _ _ ↦ rfl
  | resource call =>
    obtain ⟨r, hr, heq⟩ := map_eq_ok hexec
    rw [← heq]
    refine hdb.frame rfl (fun p job hjob ↦ ?_) fun _ _ _ ↦ rfl
    exact ResourceCall.hasManagedDatabase_eq hr (hdb.deleting p job hjob)
  | deletion call =>
    obtain ⟨r, hr, heq⟩ := map_eq_ok hexec
    rw [← heq]
    exact (DeletionCall.exec_ok hr).authorized hdb
  | runtime p row =>
    rw [← Except.ok.inj hexec]
    exact hdb.frame rfl (fun _ _ _ ↦ rfl) fun _ _ _ ↦ rfl
  | purgeDiagnostics expired =>
    rw [← Except.ok.inj hexec]
    exact hdb.frame rfl (fun _ _ _ ↦ rfl) fun _ _ _ ↦ rfl

/-! ## Runs -/

variable {allowed : DatabaseCall → Prop} {h h' : DatabaseHistory}

theorem DatabaseHistory.Step.authorized (hs : DatabaseHistory.Step allowed h h')
    (hdb : h.db.Authorized) : h'.db.Authorized := by
  obtain ⟨call, -, hc⟩ := hs
  exact hc.authorized hdb

theorem DatabaseHistory.steps_authorized (hs : Relation.ReflTransGen (Step allowed) h h')
    (hdb : h.db.Authorized) : h'.db.Authorized := by
  induction hs with
  | refl => exact hdb
  | tail _ hstep ih => exact hstep.authorized ih

/-- The call does not delete a project. -/
def DatabaseCall.KeepsProjects (call : DatabaseCall) : Prop :=
  ∀ claim, call ≠ .deletion (.finalize claim)

/-- A job stays, with its flag, until its project is deleted. -/
theorem DatabaseCommit.keeps_flag {call : DatabaseCall} (hc : DatabaseCommit status call h h')
    (hcall : call.KeepsProjects) {p : Uuid} {job : ProjectDeletionJobRow}
    (hjob : h.db.deletionJobs.lookup p = some job) :
    ∃ job', h'.db.deletionJobs.lookup p = some job'
      ∧ job'.deleteManagedDatabase = job.deleteManagedDatabase := by
  have hwrite {q : Uuid} {old new : ProjectDeletionJobRow}
      (hold : h.db.deletionJobs.lookup q = some old)
      (hflag : new.deleteManagedDatabase = old.deleteManagedDatabase) :
      ∃ job', (h.db.deletionJobs.insert q new).lookup p = some job'
        ∧ job'.deleteManagedDatabase = job.deleteManagedDatabase := by
    rw [lookup_insert']
    split_ifs with hq
    · cases hq
      obtain rfl := Option.some.inj (hold.symm.trans hjob)
      exact ⟨new, rfl, hflag⟩
    · exact ⟨job, hjob, rfl⟩
  obtain ⟨now, hexec⟩ := hc.exec
  cases call with
  | deletion call =>
    obtain ⟨r, hr, heq⟩ := map_eq_ok hexec
    obtain ⟨claim, db'⟩ := r
    have hcommits := DeletionCall.exec_ok hr
    rw [← heq]
    cases hcommits with
    | idle => exact ⟨job, hjob, rfl⟩
    | @request q c new hproject hfree hflag hphase hstate hchecks =>
      have hne : p ≠ q := by
        rintro rfl
        rw [hfree] at hjob
        cases hjob
      exact ⟨job, (AList.lookup_insert_ne hne).trans hjob, rfl⟩
    | retry hold hfailed hflag => exact hwrite hold hflag
    | claimNext hold hdue hflag => exact hwrite hold hflag
    | move hclaim hold hheld hmoves => exact hwrite hold hmoves.flag
    | @finalize claim => exact absurd rfl (hcall claim)
  | createProject | updateSettings | deployment | route | reconciliation | resource =>
    obtain ⟨r, hr, heq⟩ := map_eq_ok hexec
    exact ⟨job, by rw [← heq]; exact hjob, rfl⟩
  | runtime | purgeDiagnostics => exact ⟨job, by rw [← Except.ok.inj hexec]; exact hjob, rfl⟩

theorem DatabaseHistory.steps_keep_flag
    (hs : Relation.ReflTransGen (Step DatabaseCall.KeepsProjects) h h') {p : Uuid}
    {job : ProjectDeletionJobRow} (hjob : h.db.deletionJobs.lookup p = some job) :
    ∃ job', h'.db.deletionJobs.lookup p = some job'
      ∧ job'.deleteManagedDatabase = job.deleteManagedDatabase := by
  induction hs with
  | refl => exact ⟨job, hjob, rfl⟩
  | tail _ hstep ih =>
    obtain ⟨job₁, hjob₁, hflag₁⟩ := ih
    obtain ⟨call, hcall, hc⟩ := hstep
    obtain ⟨job₂, hjob₂, hflag₂⟩ := hc.keeps_flag hcall hjob₁
    exact ⟨job₂, hjob₂, hflag₂.trans hflag₁⟩

theorem Database.Authorized.validated (hdb : db.Authorized) {p : Uuid}
    {job job' : ProjectDeletionJobRow} (hjob : db.deletionJobs.lookup p = some job')
    (hflag : job'.deleteManagedDatabase = job.deleteManagedDatabase) :
    ∃ resource, db.validatedDatabaseResource (deletionJob p job) = .ok resource := by
  have hsome : ((db.resourceDb db.statuses).getForProject p).isSome = job.deleteManagedDatabase := by
    rw [← hflag, hdb.flag p job' hjob, ResourceDb.getForProject, Option.isSome_map]
    rfl
  refine ⟨(db.resourceDb db.statuses).getForProject p, ?_⟩
  have hmatch : ¬ ((db.resourceDb db.statuses).getForProject (deletionJob p job).projectId).isSome
      ≠ (deletionJob p job).deleteManagedDatabase := not_not.mpr hsome
  rw [validatedDatabaseResource]
  exact if_neg hmatch

/-- **The flag of a deletion job stays right.** Whatever transactions run side by side, a deletion job
has the flag just when there is a managed database, its columns satisfy the checks of the table, and
no operation on the jobs is refused for them. What a worker has read of a job agrees with the managed
database as long as no project is deleted. -/
theorem deletionJobs_authorized {L L' : Sessions} (hr : Sessions.Reachable (fun _ ↦ True) L)
    (hs : Relation.ReflTransGen (Sessions.Step DatabaseCall.KeepsProjects) L L') :
    (∀ p job, L.state.db.deletionJobs.lookup p = some job →
      (job.deleteManagedDatabase = true
          ↔ ∃ row, L.state.db.databaseResources.lookup p = some row) ∧ job.checks = true
        ∧ ∃ resource, L'.state.db.validatedDatabaseResource (deletionJob p job) = .ok resource)
      ∧ ∀ (call : DeletionCall) (status : Statuses) (now : ℕ → Time),
        call.exec status now L.state.db ≠ .error .checkViolation := by
  have hdb : L.state.db.Authorized :=
    DatabaseHistory.steps_authorized hr.history Database.Authorized.empty
  have hf : Locked.Faithful (databaseStore DatabaseCall.KeepsProjects) L :=
    ⟨hr.faithful.reads, hr.faithful.apart⟩
  have hsteps := Sessions.steps_history hf hs
  have hdb' : L'.state.db.Authorized := DatabaseHistory.steps_authorized hsteps hdb
  refine ⟨fun p job hjob ↦ ⟨?_, hdb.checked p job hjob, ?_⟩, fun call status now ↦
    DeletionCall.exec_ne_checkViolation hdb.checked call⟩
  · rw [hdb.flag p job hjob, hasManagedDatabase, Option.isSome_iff_exists]
  · obtain ⟨job', hjob', hflag⟩ := DatabaseHistory.steps_keep_flag hsteps hjob
    exact hdb'.validated hjob' hflag

/-- The flag of the job of `sampleDeletion`, before and after a worker takes it. -/
theorem deletionJobs_authorized_sample :
    (sampleDeletionJob.deleteManagedDatabase = true
        ↔ ∃ row, sampleDeletion.db.databaseResources.lookup (.ofNat 1) = some row)
      ∧ ∃ resource, (sampleDeletion.after
          (.deletion (.claimNext "worker" 10 (.ofNat 2) fun _ ↦ false)) id).db.validatedDatabaseResource
            (deletionJob (.ofNat 1) sampleDeletionJob) = .ok resource := by
  have hclaim : Relation.ReflTransGen (Sessions.Step DatabaseCall.KeepsProjects)
      ⟨sampleDeletion, []⟩ ⟨sampleDeletion.after
        (.deletion (.claimNext "worker" 10 (.ofNat 2) fun _ ↦ false)) id, []⟩ :=
    Sessions.steps_after _ id (by simp [DatabaseCall.KeepsProjects]) (by simp [DatabaseCall.draws])
  have hjob : sampleDeletion.db.deletionJobs.lookup (.ofNat 1) = some sampleDeletionJob :=
    AList.lookup_insert _
  obtain ⟨hflag, -, hresource⟩ := (deletionJobs_authorized reachable_sampleDeletion hclaim).1 _ _ hjob
  exact ⟨hflag, hresource⟩

end Heimdall
