import Heimdall.Effect.Fallible
import Heimdall.Effect.Table
import Heimdall.Transactions

/-!
# Rows of deletion jobs

What a transaction on a deletion job writes (`DeletionCall.Commits`): a request opens a job, a retry
reopens a failed one, a worker takes a job, and the holder of the live claim moves it on, gives it up
or deletes the project. The columns of the lease are set just when the job is claimed and those of the
error just when it has failed, and no transaction is refused for them (`exec_ne_checkViolation`).
-/

namespace Heimdall

namespace Database

variable {db db' : Database} {p : Uuid} {job : ProjectDeletionJobRow} {now : Time}
  {claim : ProjectDeletionJobClaim}

@[simp] theorem statuses_markDeleting (db : Database) (p q : Uuid) (now : Time) :
    (db.markDeleting p now).statuses q
      = if q = p ∧ (db.statuses p).isSome then some .deleting else db.statuses q := by
  unfold markDeleting
  cases hp : db.projects.lookup p with
  | none => simp [statuses, hp]
  | some row =>
    by_cases hq : q = p
    · subst hq
      simp [statuses, hp]
    · simp [statuses, hq, AList.lookup_insert_ne hq]

theorem putDeletionJob_ok (h : db.putDeletionJob p job = .ok db') :
    db' = { db with deletionJobs := db.deletionJobs.insert p job } ∧ job.checks = true := by
  unfold putDeletionJob at h
  split at h
  · cases h
  split at h
  · cases h
  · next hchecks => exact ⟨(Except.ok.inj h).symm, by simpa using hchecks⟩

theorem putDeletionJob_ne (hchecks : job.checks = true) :
    db.putDeletionJob p job ≠ .error .checkViolation := by
  simp only [putDeletionJob, hchecks]
  split <;> simp

theorem holdsDeletion_iff : holdsDeletion job claim now = true ↔ job.state = .claimed
    ∧ job.leaseOwner = some claim.workerId ∧ job.claimToken = some claim.token
    ∧ ∃ t, job.leaseExpiresAt = some t ∧ now < t := by
  simp only [holdsDeletion, Bool.and_eq_true, beq_iff_eq, Option.any_eq_true, decide_eq_true_eq,
    and_assoc]

theorem updateDeletion_ok {set : ProjectDeletionJobRow → ProjectDeletionJobRow}
    {r : ProjectDeletionJob} (h : db.updateDeletion claim now set = .ok (r, db')) :
    ∃ job, db.deletionJobs.lookup claim.job.projectId = some job
      ∧ holdsDeletion job claim now = true ∧ r = deletionJob claim.job.projectId (set job)
      ∧ (set job).checks = true
      ∧ db' = { db with deletionJobs := db.deletionJobs.insert claim.job.projectId (set job) } := by
  unfold updateDeletion at h
  split at h
  · next job hjob =>
    split at h
    · next hheld =>
      obtain ⟨db₁, hput, h⟩ := bind_eq_ok h
      obtain ⟨rfl, rfl⟩ := Prod.mk.inj (Except.ok.inj h)
      obtain ⟨rfl, hchecks⟩ := putDeletionJob_ok hput
      exact ⟨job, hjob, hheld, rfl, hchecks, rfl⟩
    · cases h
  · cases h

theorem updateDeletion_ne {set : ProjectDeletionJobRow → ProjectDeletionJobRow}
    (h : ∀ job, db.deletionJobs.lookup claim.job.projectId = some job → job.state = .claimed →
      (set job).checks = true) : db.updateDeletion claim now set ≠ .error .checkViolation := by
  unfold updateDeletion
  split
  · next job hjob =>
    split
    · next hheld =>
      exact bind_ne (putDeletionJob_ne (h job hjob (holdsDeletion_iff.mp hheld).1)) fun _ ↦ ok_ne
    · exact nofun
  · exact nofun

end Database

/-! ## Commits -/

namespace DeletionCall

open Database

/-- The claim a call presents. -/
def claim? : DeletionCall → Option ProjectDeletionJobClaim
  | .renew claim _ | .advance claim _ _ | .fail claim _ _ | .reschedule claim _ | .defer claim _
  | .finalize claim => some claim
  | _ => none

/-- What the holder of a claim makes of its job. -/
structure Moves (call : DeletionCall) (old new : ProjectDeletionJobRow) : Prop where
  flag : new.deleteManagedDatabase = old.deleteManagedDatabase
  phase : new.phase = old.phase ∨ ∃ claim, call = .advance claim old.phase new.phase
    ∧ new.phase.index = old.phase.index + 1
  lease : new.state = .claimed ∧ new.claimToken = old.claimToken ∧ new.leaseOwner = old.leaseOwner
    ∨ new.state ≠ .claimed

/-- What a call that commits does to the tables. -/
inductive Commits (status : Statuses) (now : ℕ → Time) (db : Database) :
    DeletionCall → Option ProjectDeletionJobClaim → Database → Prop
  | idle (call : DeletionCall) : Commits status now db call none db
  | request {p : Uuid} {c : DeletionConfirmation} {job : ProjectDeletionJobRow}
    (hproject : (status p).isSome) (hfree : db.deletionJobs.lookup p = none)
    (hflag : job.deleteManagedDatabase = db.hasManagedDatabase p)
    (hphase : job.phase = .requested) (hstate : job.state = .pending)
    (hchecks : job.checks = true) :
    Commits status now db (.request p c) none { db.markDeleting p (now 0) with
      deletionJobs := db.deletionJobs.insert p job }
  | retry {p : Uuid} {c : DeletionConfirmation} {old new : ProjectDeletionJobRow}
    (hold : db.deletionJobs.lookup p = some old) (hfailed : old.state = .failed)
    (hflag : new.deleteManagedDatabase = old.deleteManagedDatabase)
    (hphase : new.phase = old.phase) (hstate : new.state = .pending)
    (hchecks : new.checks = true) : Commits status now db (.retry p c) none
      { db with deletionJobs := db.deletionJobs.insert p new }
  | claimNext {workerId : String} {duration : Time} {token : Uuid} {locked : Uuid → Bool}
    {claim : ProjectDeletionJobClaim} {p : Uuid} {old new : ProjectDeletionJobRow}
    (hold : db.deletionJobs.lookup p = some old) (hdue : deletionClaimable (now 0) old = true)
    (hflag : new.deleteManagedDatabase = old.deleteManagedDatabase)
    (hphase : new.phase = old.phase) (hstate : new.state = .claimed)
    (htoken : new.claimToken = some token) (hjob : claim.job = deletionJob p new)
    (hclaim : claim.token = token ∧ claim.workerId = workerId) (hchecks : new.checks = true) :
    Commits status now db (.claimNext workerId duration token locked) (some claim)
      { db with deletionJobs := db.deletionJobs.insert p new }
  | move {call : DeletionCall} {claim : ProjectDeletionJobClaim} {old new : ProjectDeletionJobRow}
    (hclaim : call.claim? = some claim)
    (hold : db.deletionJobs.lookup claim.job.projectId = some old)
    (hheld : holdsDeletion old claim (now 0) = true) (hmoves : Moves call old new)
    (hchecks : new.checks = true) :
    Commits status now db call none
      { db with deletionJobs := db.deletionJobs.insert claim.job.projectId new }
  | finalize {claim : ProjectDeletionJobClaim} {old : ProjectDeletionJobRow}
    (hold : db.deletionJobs.lookup claim.job.projectId = some old)
    (hheld : holdsDeletion old claim (now 0) = true) (hphase : old.phase = .metadataDelete)
    (hstatus : status claim.job.projectId = some .deleting)
    (hroute : db.deletionIsApplied claim.job.projectId = true) :
    Commits status now db (.finalize claim) none (db.eraseProject claim.job.projectId)

variable {status : Statuses} {now : ℕ → Time} {db db' : Database}
  {claim : Option ProjectDeletionJobClaim} {call : DeletionCall}

theorem request_ok {p : Uuid} {c : DeletionConfirmation} {r : ProjectDeletionJob}
    (h : db.requestDeletion status p c (now 0) = .ok (r, db')) :
    Commits status now db (.request p c) none db' := by
  unfold requestDeletion at h
  split at h
  · cases h
  next hproject =>
  obtain ⟨⟨⟩, -, h⟩ := bind_eq_ok h
  split at h
  · split at h
    · cases h
    · obtain ⟨-, rfl⟩ := Prod.mk.inj (Except.ok.inj h)
      exact .idle _
  · next hfree =>
    obtain ⟨db₁, hput, h⟩ := bind_eq_ok h
    obtain ⟨-, rfl⟩ := Prod.mk.inj (Except.ok.inj h)
    obtain ⟨rfl, hchecks⟩ := putDeletionJob_ok hput
    have hjobs : (db.markDeleting p (now 0)).deletionJobs = db.deletionJobs := by
      unfold markDeleting
      split <;> rfl
    rw [hjobs]
    exact .request (by simpa [Option.isSome_iff_ne_none] using hproject) hfree rfl rfl rfl
      hchecks

theorem retry_ok {p : Uuid} {c : DeletionConfirmation} {r : ProjectDeletionJob}
    (h : db.retryDeletion status p c (now 0) = .ok (r, db')) :
    Commits status now db (.retry p c) none db' := by
  unfold retryDeletion at h
  split at h
  · cases h
  obtain ⟨⟨⟩, -, h⟩ := bind_eq_ok h
  split at h
  · cases h
  next job hjob =>
  split at h
  · next hfailed =>
    obtain ⟨db₁, hput, h⟩ := bind_eq_ok h
    obtain ⟨-, rfl⟩ := Prod.mk.inj (Except.ok.inj h)
    obtain ⟨rfl, hchecks⟩ := putDeletionJob_ok hput
    exact .retry hjob hfailed rfl rfl rfl hchecks
  · cases h

theorem claimNext_ok {workerId : String} {duration : Time} {token : Uuid} {locked : Uuid → Bool}
    (h : db.claimNextDeletion workerId duration token locked now = .ok (claim, db')) :
    Commits status now db (.claimNext workerId duration token locked) claim db' := by
  unfold claimNextDeletion at h
  split at h
  · obtain ⟨rfl, rfl⟩ := Prod.mk.inj (Except.ok.inj h)
    exact .idle _
  · next p job hnext =>
    obtain ⟨hjob, hcond⟩ := lookup_of_first hnext
    obtain ⟨db₁, hput, h⟩ := bind_eq_ok h
    obtain ⟨rfl, rfl⟩ := Prod.mk.inj (Except.ok.inj h)
    obtain ⟨rfl, hchecks⟩ := putDeletionJob_ok hput
    simp only [Bool.and_eq_true] at hcond
    exact .claimNext hjob hcond.1 rfl rfl rfl rfl rfl ⟨rfl, rfl⟩ hchecks

theorem move_ok {claim : ProjectDeletionJobClaim} {r : ProjectDeletionJob}
    {set : ProjectDeletionJobRow → ProjectDeletionJobRow}
    (h : db.updateDeletion claim (now 0) set = .ok (r, db')) (hclaim : call.claim? = some claim)
    (hset : ∀ old, db.deletionJobs.lookup claim.job.projectId = some old →
      holdsDeletion old claim (now 0) = true → Moves call old (set old)) :
    Commits status now db call none db' := by
  obtain ⟨old, hold, hheld, -, hchecks, rfl⟩ := updateDeletion_ok h
  exact .move hclaim hold hheld (hset old hold hheld) hchecks

theorem exec_ok (h : call.exec status now db = .ok (claim, db')) :
    Commits status now db call claim db' := by
  have hreleased {call : DeletionCall} {old new : ProjectDeletionJobRow}
      (hflag : new.deleteManagedDatabase = old.deleteManagedDatabase)
      (hphase : new.phase = old.phase) (hstate : new.state ≠ .claimed) : Moves call old new :=
    ⟨hflag, .inl hphase, .inr hstate⟩
  cases call with
  | request p c =>
    obtain ⟨r, hr, heq⟩ := map_eq_ok h
    cases heq
    exact request_ok hr
  | retry p c =>
    obtain ⟨r, hr, heq⟩ := map_eq_ok h
    cases heq
    exact retry_ok hr
  | claimNext workerId duration token locked => exact claimNext_ok h
  | renew claim duration =>
    obtain ⟨r, hr, heq⟩ := map_eq_ok h
    cases heq
    obtain ⟨⟨job, db₁⟩, hupdate, hr⟩ := bind_eq_ok hr
    cases hr
    refine move_ok hupdate rfl fun old _ hheld ↦ ⟨rfl, .inl rfl, .inl ⟨?_, rfl, rfl⟩⟩
    exact (holdsDeletion_iff.mp hheld).1
  | advance claim expected next =>
    obtain ⟨r, hr, heq⟩ := map_eq_ok h
    cases heq
    unfold advanceDeletion at hr
    split at hr
    · cases hr
    next hindex =>
    split at hr
    · cases hr
    next hexpected =>
    refine move_ok hr rfl fun old hold hheld ↦ ?_
    have hphase : old.phase = expected := by simpa [hold, hheld] using hexpected
    exact ⟨rfl, .inr ⟨claim, by rw [hphase], by rw [hphase]; exact not_not.mp hindex⟩,
      .inl ⟨(holdsDeletion_iff.mp hheld).1, rfl, rfl⟩⟩
  | fail claim code retryable =>
    obtain ⟨r, hr, heq⟩ := map_eq_ok h
    cases heq
    exact move_ok hr rfl fun old _ _ ↦ hreleased rfl rfl nofun
  | reschedule claim availableAt =>
    obtain ⟨r, hr, heq⟩ := map_eq_ok h
    cases heq
    exact move_ok hr rfl fun old _ _ ↦ hreleased rfl rfl nofun
  | defer claim availableAt =>
    obtain ⟨r, hr, heq⟩ := map_eq_ok h
    cases heq
    exact move_ok hr rfl fun old _ _ ↦ hreleased rfl rfl nofun
  | finalize claim =>
    obtain ⟨r, hr, heq⟩ := map_eq_ok h
    cases heq
    unfold finalizeDeletion at hr
    dsimp only at hr
    split at hr
    · next hcond =>
      obtain ⟨hjob, hstatus, hroute⟩ := hcond
      obtain ⟨old, hold, hheld⟩ := Option.any_eq_true _ _ |>.mp hjob
      cases hr
      rw [Bool.and_eq_true, beq_iff_eq] at hheld
      exact .finalize hold hheld.1 hheld.2 hstatus hroute
    · cases hr

/-! ## Checks -/

/-- Every job row satisfies the checks of its table. -/
def Checked (db : Database) : Prop :=
  ∀ p job, db.deletionJobs.lookup p = some job → job.checks = true

theorem checks_claimed {job : ProjectDeletionJobRow} (h : job.checks = true)
    (hstate : job.state = .claimed) : job.leaseOwner.isSome = true ∧ job.claimToken.isSome = true
      ∧ job.lastErrorCode = none ∧ job.lastErrorRetryable = none := by
  simp only [ProjectDeletionJobRow.checks, hstate, if_true, reduceCtorEq, if_false,
    Bool.and_eq_true, Option.isNone_iff_eq_none] at h
  exact ⟨h.1.1.1, h.1.2, h.2.1, h.2.2⟩

theorem checks_pending {job : ProjectDeletionJobRow} (h : job.checks = true)
    (hstate : job.state = .pending) : job.lastErrorCode = none ∧ job.lastErrorRetryable = none := by
  simp only [ProjectDeletionJobRow.checks, hstate, reduceCtorEq, if_false, Bool.and_eq_true,
    Option.isNone_iff_eq_none] at h
  exact h.2

theorem request_ne {p : Uuid} {c : DeletionConfirmation} {now : Time} :
    db.requestDeletion status p c now ≠ .error .checkViolation := by
  unfold requestDeletion
  split
  · exact nofun
  refine bind_ne ?_ fun _ ↦ ?_
  · unfold validateDeletionConfirmation
    split
    · exact nofun
    · split <;> exact nofun
  · split
    · split <;> exact nofun
    · exact bind_ne (putDeletionJob_ne (by simp [ProjectDeletionJobRow.checks])) fun _ ↦ ok_ne

theorem retry_ne {p : Uuid} {c : DeletionConfirmation} {now : Time} :
    db.retryDeletion status p c now ≠ .error .checkViolation := by
  unfold retryDeletion
  split
  · exact nofun
  refine bind_ne ?_ fun _ ↦ ?_
  · unfold validateDeletionConfirmation
    split
    · exact nofun
    · split <;> exact nofun
  · split
    · exact nofun
    · split
      · exact bind_ne (putDeletionJob_ne (by simp [ProjectDeletionJobRow.checks])) fun _ ↦ ok_ne
      · exact nofun

theorem claimNext_ne (hdb : Checked db) {workerId : String} {duration : Time} {token : Uuid}
    {locked : Uuid → Bool} :
    db.claimNextDeletion workerId duration token locked now ≠ .error .checkViolation := by
  unfold claimNextDeletion
  split
  · exact nofun
  · next p job hnext =>
    obtain ⟨hjob, hcond⟩ := lookup_of_first hnext
    have hchecks := hdb p job hjob
    -- a job that is due has no error
    have herror : job.lastErrorCode = none ∧ job.lastErrorRetryable = none := by
      simp only [deletionClaimable, Bool.and_eq_true, Bool.or_eq_true, beq_iff_eq] at hcond
      rcases hcond.1 with ⟨hpending, -⟩ | ⟨hclaimed, -⟩
      · exact checks_pending hchecks hpending
      · exact (checks_claimed hchecks hclaimed).2.2
    refine bind_ne (putDeletionJob_ne ?_) fun _ ↦ ok_ne
    simp [ProjectDeletionJobRow.checks, herror]

theorem exec_ne_checkViolation (hdb : Checked db) (call : DeletionCall) :
    call.exec status now db ≠ .error .checkViolation := by
  cases call with
  | request p c => exact map_ne request_ne
  | retry p c => exact map_ne retry_ne
  | claimNext workerId duration token locked => exact claimNext_ne hdb
  | renew claim duration =>
    refine map_ne (bind_ne (updateDeletion_ne fun job hjob hstate ↦ ?_) fun _ ↦ ok_ne)
    obtain ⟨howner, htoken, hcode, hretryable⟩ := checks_claimed (hdb _ job hjob) hstate
    simp [ProjectDeletionJobRow.checks, hstate, howner, htoken, hcode, hretryable]
  | advance claim expected next =>
    refine map_ne ?_
    unfold advanceDeletion
    split
    · exact nofun
    split
    · exact nofun
    exact updateDeletion_ne fun job hjob _ ↦ hdb _ job hjob
  | fail claim code retryable =>
    exact map_ne (updateDeletion_ne fun job _ _ ↦ by simp [ProjectDeletionJobRow.checks])
  | reschedule claim availableAt =>
    refine map_ne (updateDeletion_ne fun job hjob hstate ↦ ?_)
    obtain ⟨-, -, hcode, hretryable⟩ := checks_claimed (hdb _ job hjob) hstate
    simp [ProjectDeletionJobRow.checks, hcode, hretryable]
  | defer claim availableAt =>
    refine map_ne (updateDeletion_ne fun job hjob hstate ↦ ?_)
    obtain ⟨-, -, hcode, hretryable⟩ := checks_claimed (hdb _ job hjob) hstate
    simp [ProjectDeletionJobRow.checks, hcode, hretryable]
  | finalize claim =>
    refine map_ne ?_
    unfold finalizeDeletion
    dsimp only
    split
    · exact ok_ne
    · exact nofun

end DeletionCall

end Heimdall
