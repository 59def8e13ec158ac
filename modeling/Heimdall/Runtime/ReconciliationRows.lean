import Heimdall.Effect.Fallible
import Heimdall.Effect.Table
import Heimdall.Transactions

/-!
# Rows of reconciliations

What a transaction on the reconciliations writes (`ReconciliationCall.Commits`). A request opens or
reopens a row that nobody has claimed; the scheduler adds rows where there are none; a worker takes a
row that is due; and the holder of the live claim renews it, resolves or blocks the reconciliation, or
puts it off (`ReconciliationCall.Moves`).
-/

namespace Heimdall

namespace ReconciliationDb

variable {db db' : ReconciliationDb} {d : Uuid} {row : RuntimeReconciliationRow} {now : Time}
  {claim : RuntimeReconciliationClaim}

theorem put_ok (h : db.put d row = .ok db') :
    db' = { db with reconciliations := db.reconciliations.insert d row } ∧ row.checks = true := by
  unfold put at h
  split at h
  · cases h
  split at h
  · cases h
  · next hchecks => exact ⟨(Except.ok.inj h).symm, by simpa using hchecks⟩

theorem insert_ok (h : db.insert d row = .ok db') : (db.deployments d).isSome = true
    ∧ db' = { db with reconciliations := db.reconciliations.insert d row } ∧ row.checks = true := by
  unfold insert at h
  split at h
  · cases h
  · next hsome => exact ⟨by simpa [Option.isSome_iff_ne_none] using hsome, put_ok h⟩

theorem put_ne (hchecks : row.checks = true) : db.put d row ≠ .error .checkViolation := by
  simp only [put, hchecks]
  split <;> simp

theorem insert_ne (hchecks : row.checks = true) : db.insert d row ≠ .error .checkViolation := by
  unfold insert
  split
  · exact nofun
  · exact put_ne hchecks

theorem holdsClaim_iff : holdsClaim row claim now = true ↔ row.state = .claimed
    ∧ row.leaseOwner = some claim.workerId ∧ row.claimToken = some claim.token
    ∧ ∃ t, row.leaseExpiresAt = some t ∧ now < t := by
  simp only [holdsClaim, Bool.and_eq_true, beq_iff_eq, Option.any_eq_true, decide_eq_true_eq,
    and_assoc]

theorem updateFenced_ok {set : RuntimeReconciliationRow → RuntimeReconciliationRow}
    {r : RuntimeReconciliation} (h : db.updateFenced claim now set = .ok (r, db')) :
    ∃ row, db.reconciliations.lookup claim.reconciliation.deploymentId = some row
      ∧ holdsClaim row claim now = true ∧ (set row).checks = true
      ∧ db' = { db with reconciliations :=
        db.reconciliations.insert claim.reconciliation.deploymentId (set row) } := by
  unfold updateFenced at h
  split at h
  · next row hrow =>
    split at h
    · next hheld =>
      obtain ⟨db₁, hput, h⟩ := bind_eq_ok h
      obtain ⟨rfl, rfl⟩ := Prod.mk.inj (Except.ok.inj h)
      obtain ⟨rfl, hchecks⟩ := put_ok hput
      exact ⟨row, hrow, hheld, hchecks, rfl⟩
    · cases h
  · cases h

theorem updateFenced_ne {set : RuntimeReconciliationRow → RuntimeReconciliationRow}
    (h : ∀ row, db.reconciliations.lookup claim.reconciliation.deploymentId = some row →
      row.state = .claimed → (set row).checks = true) :
    db.updateFenced claim now set ≠ .error .checkViolation := by
  unfold updateFenced
  split
  · next row hrow =>
    split
    · next hheld => exact bind_ne (put_ne (h row hrow (holdsClaim_iff.mp hheld).1)) fun _ ↦ ok_ne
    · exact nofun
  · exact nofun

/-! ## The scheduler -/

/-- What the scheduler leaves under a deployment: the row it found, or a new one where there was none
and the project is not being deleted. -/
def ScheduledAt (db db' : ReconciliationDb) (d : Uuid) : Prop :=
  db'.reconciliations.lookup d = db.reconciliations.lookup d
    ∨ db.reconciliations.lookup d = none ∧ (db.deployments d).isSome = true
      ∧ db.projectStatus d ≠ some .deleting ∧ ∃ row, db'.reconciliations.lookup d = some row
        ∧ row.state = .pending ∧ row.result = none ∧ row.checks = true

theorem scheduleOne_ok {candidate : Uuid × Time} (h : scheduleOne now db candidate = .ok db') :
    db' = { db with reconciliations := db'.reconciliations } ∧ ∀ d, db.ScheduledAt db' d := by
  have hidle : scheduleOne now db candidate = .ok db → db' = { db with
      reconciliations := db'.reconciliations } ∧ ∀ d, db.ScheduledAt db' d := fun heq ↦ by
    obtain rfl := Except.ok.inj (heq.symm.trans h)
    exact ⟨rfl, fun _ ↦ .inl rfl⟩
  unfold scheduleOne at h hidle
  split at h
  · next hstatus => exact hidle (by rw [hstatus])
  · next hstatus => exact hidle (by rw [hstatus])
  · next status hlive hstatus =>
    split at h
    · next hsome => exact hidle (by simp [hstatus, hsome])
    · next hnone =>
      obtain ⟨hdeployment, rfl, hchecks⟩ := insert_ok h
      refine ⟨rfl, fun d ↦ ?_⟩
      by_cases hd : d = candidate.1
      · rw [hd]
        refine .inr ⟨by simpa using hnone, hdeployment, ?_, _, AList.lookup_insert _, rfl, rfl, hchecks⟩
        rw [hstatus]
        exact fun heq ↦ hlive (Option.some.inj heq)
      · exact .inl (AList.lookup_insert_ne hd)

theorem scheduleAutomatic_ok {candidates : List (Uuid × Time)}
    (h : db.scheduleAutomatic candidates now = .ok db') :
    db' = { db with reconciliations := db'.reconciliations } ∧ ∀ d, db.ScheduledAt db' d := by
  induction candidates generalizing db with
  | nil =>
    cases h
    exact ⟨rfl, fun _ ↦ .inl rfl⟩
  | cons candidate candidates ih =>
    obtain ⟨db₁, hone, h⟩ := bind_eq_ok h
    obtain ⟨heq₁, hone⟩ := scheduleOne_ok hone
    obtain ⟨heq, hrest⟩ := ih h
    have hdeployments : db₁.deployments = db.deployments := by rw [heq₁]
    have hstatus (d : Uuid) : db₁.projectStatus d = db.projectStatus d := by
      rw [heq₁]
      rfl
    refine ⟨by rw [heq, heq₁], fun d ↦ ?_⟩
    rcases hrest d with hsame | ⟨hnone, hdeployment, hlive, hrow⟩
    · rcases hone d with hsame₁ | ⟨hnone, hdeployment, hlive, row, hrow, hfacts⟩
      · exact .inl (hsame.trans hsame₁)
      · exact .inr ⟨hnone, hdeployment, hlive, row, hsame.trans hrow, hfacts⟩
    · rcases hone d with hsame₁ | ⟨-, -, -, row, hsome, -⟩
      · exact .inr ⟨hsame₁ ▸ hnone, hdeployments ▸ hdeployment, hstatus d ▸ hlive, hrow⟩
      · rw [hsome] at hnone
        cases hnone

theorem scheduleAutomatic_ne {candidates : List (Uuid × Time)} :
    db.scheduleAutomatic candidates now ≠ .error .checkViolation := by
  induction candidates generalizing db with
  | nil => exact ok_ne
  | cons candidate candidates ih =>
    refine bind_ne ?_ fun _ ↦ ih
    unfold scheduleOne
    split
    · exact ok_ne
    · exact ok_ne
    · split
      · exact ok_ne
      · exact insert_ne (by simp [RuntimeReconciliationRow.checks])

end ReconciliationDb

/-! ## Commits -/

namespace ReconciliationCall

open ReconciliationDb

/-- The claim a call presents. -/
def claim? : ReconciliationCall → Option RuntimeReconciliationClaim
  | .renew claim _ | .resolve claim _ _ | .block claim _ | .retry claim _ _ => some claim
  | _ => none

/-- What the holder of a claim makes of its row. -/
inductive Moves (now : Time) (old new : RuntimeReconciliationRow) : ReconciliationCall → Prop
  | renew {claim : RuntimeReconciliationClaim} {duration : Time} (hstate : new.state = .claimed)
    (hresult : new.result = old.result) (htoken : new.claimToken = old.claimToken)
    (hlease : new.leaseExpiresAt = some (now + duration)) : Moves now old new (.renew claim duration)
  | resolve {claim : RuntimeReconciliationClaim} {result : ReconciliationResult} {code : String}
    (hknown : result ≠ .uncertain) (hstate : new.state = .resolved)
    (hresult : new.result = some result) : Moves now old new (.resolve claim result code)
  | block {claim : RuntimeReconciliationClaim} {code : String} (hstate : new.state = .blocked)
    (hresult : new.result = some .uncertain) : Moves now old new (.block claim code)
  | retry {claim : RuntimeReconciliationClaim} {availableAt : Time} {code : String}
    (hstate : new.state = .pending) (hresult : new.result = none) :
    Moves now old new (.retry claim availableAt code)

/-- What a call that commits does to the tables. -/
inductive Commits (now : Time) (db : ReconciliationDb) :
    ReconciliationCall → Option RuntimeReconciliationClaim → ReconciliationDb → Prop
  | idle {workerId : String} {duration : Time} {token : Uuid} {locked : Uuid → Bool} :
    Commits now db (.claimNext workerId duration token locked) none db
  | request {d : Uuid} {action : ReconciliationAction} {requestedBy : ReconciliationRequester}
    {row : RuntimeReconciliationRow} (hlive : db.projectStatus d ≠ some .deleting)
    (hfree : ∀ old, db.reconciliations.lookup d = some old → old.state ≠ .claimed)
    (hdeployment : db.reconciliations.lookup d = none → (db.deployments d).isSome = true)
    (hstate : row.state = .pending) (hresult : row.result = none) (hchecks : row.checks = true) :
    Commits now db (.request d action requestedBy) none
      { db with reconciliations := db.reconciliations.insert d row }
  | schedule {candidates : List (Uuid × Time)} {db' : ReconciliationDb}
    (hframe : db' = { db with reconciliations := db'.reconciliations })
    (hrows : ∀ d, db.ScheduledAt db' d) : Commits now db (.scheduleAutomatic candidates) none db'
  | claimNext {workerId : String} {duration : Time} {token : Uuid} {locked : Uuid → Bool}
    {claim : RuntimeReconciliationClaim} {d : Uuid} {old new : RuntimeReconciliationRow}
    (hold : db.reconciliations.lookup d = some old) (hdue : claimable now old = true)
    (hstate : new.state = .claimed) (hresult : new.result = old.result)
    (htoken : new.claimToken = some token)
    (hclaim : claim.reconciliation.deploymentId = d ∧ claim.token = token
      ∧ claim.workerId = workerId) (hchecks : new.checks = true) :
    Commits now db (.claimNext workerId duration token locked) (some claim)
      { db with reconciliations := db.reconciliations.insert d new }
  | move {call : ReconciliationCall} {claim : RuntimeReconciliationClaim}
    {old new : RuntimeReconciliationRow} (hclaim : call.claim? = some claim)
    (hold : db.reconciliations.lookup claim.reconciliation.deploymentId = some old)
    (hheld : holdsClaim old claim now = true) (hmoves : Moves now old new call)
    (hchecks : new.checks = true) :
    Commits now db call none { db with
      reconciliations := db.reconciliations.insert claim.reconciliation.deploymentId new }

variable {now : Time} {db db' : ReconciliationDb} {claim : Option RuntimeReconciliationClaim}
  {call : ReconciliationCall}

theorem request_ok {d : Uuid} {action : ReconciliationAction}
    {requestedBy : ReconciliationRequester} {r : RuntimeReconciliation}
    (h : db.request d action requestedBy now = .ok (r, db')) :
    Commits now db (.request d action requestedBy) none db' := by
  unfold ReconciliationDb.request at h
  split at h
  · cases h
  next hlive =>
  split at h
  · next hnone =>
    obtain ⟨db₁, hinsert, h⟩ := bind_eq_ok h
    obtain ⟨-, rfl⟩ := Prod.mk.inj (Except.ok.inj h)
    obtain ⟨hdeployment, rfl, hchecks⟩ := insert_ok hinsert
    refine .request hlive (fun old hold ↦ ?_) (fun _ ↦ hdeployment) rfl rfl hchecks
    rw [hnone] at hold
    cases hold
  · next current hcurrent =>
    split at h
    · cases h
    next hfree =>
    obtain ⟨db₁, hput, h⟩ := bind_eq_ok h
    obtain ⟨-, rfl⟩ := Prod.mk.inj (Except.ok.inj h)
    obtain ⟨rfl, hchecks⟩ := put_ok hput
    refine .request hlive (fun old hold ↦ ?_) (fun hnone ↦ ?_) rfl rfl hchecks
    · exact Option.some.inj (hcurrent.symm.trans hold) ▸ hfree
    · rw [hcurrent] at hnone
      cases hnone

theorem claimNext_ok {workerId : String} {duration : Time} {token : Uuid} {locked : Uuid → Bool}
    (h : db.claimNext workerId duration token locked now = .ok (claim, db')) :
    Commits now db (.claimNext workerId duration token locked) claim db' := by
  unfold ReconciliationDb.claimNext at h
  split at h
  · obtain ⟨rfl, rfl⟩ := Prod.mk.inj (Except.ok.inj h)
    exact .idle
  · next d row hnext =>
    obtain ⟨hrow, hcond⟩ := lookup_of_first hnext
    obtain ⟨db₁, hput, h⟩ := bind_eq_ok h
    obtain ⟨rfl, rfl⟩ := Prod.mk.inj (Except.ok.inj h)
    obtain ⟨rfl, hchecks⟩ := put_ok hput
    simp only [Bool.and_eq_true] at hcond
    exact .claimNext hrow hcond.1 rfl rfl rfl ⟨rfl, rfl, rfl⟩ hchecks

theorem move_ok {claim : RuntimeReconciliationClaim} {r : RuntimeReconciliation}
    {set : RuntimeReconciliationRow → RuntimeReconciliationRow}
    (h : db.updateFenced claim now set = .ok (r, db')) (hclaim : call.claim? = some claim)
    (hset : ∀ old, holdsClaim old claim now = true → Moves now old (set old) call) :
    Commits now db call none db' := by
  obtain ⟨old, hold, hheld, hchecks, rfl⟩ := updateFenced_ok h
  exact .move hclaim hold hheld (hset old hheld) hchecks

theorem exec_ok (h : call.exec now db = .ok (claim, db')) : Commits now db call claim db' := by
  cases call with
  | request d action requestedBy =>
    obtain ⟨r, hr, heq⟩ := map_eq_ok h
    cases heq
    exact request_ok hr
  | scheduleAutomatic candidates =>
    obtain ⟨db₁, hr, heq⟩ := map_eq_ok h
    cases heq
    obtain ⟨hframe, hrows⟩ := scheduleAutomatic_ok hr
    exact .schedule hframe hrows
  | claimNext workerId duration token locked => exact claimNext_ok h
  | renew claim duration =>
    obtain ⟨r, hr, heq⟩ := map_eq_ok h
    cases heq
    obtain ⟨⟨r₁, db₁⟩, hupdate, hr⟩ := bind_eq_ok hr
    cases hr
    exact move_ok hupdate rfl fun old hheld ↦ .renew (holdsClaim_iff.mp hheld).1 rfl rfl rfl
  | resolve claim result code =>
    obtain ⟨r, hr, heq⟩ := map_eq_ok h
    cases heq
    unfold ReconciliationDb.resolve at hr
    split at hr
    · cases hr
    · next hknown => exact move_ok hr rfl fun old _ ↦ .resolve hknown rfl rfl
  | block claim code =>
    obtain ⟨r, hr, heq⟩ := map_eq_ok h
    cases heq
    exact move_ok hr rfl fun old _ ↦ .block rfl rfl
  | retry claim availableAt code =>
    obtain ⟨r, hr, heq⟩ := map_eq_ok h
    cases heq
    exact move_ok hr rfl fun old _ ↦ .retry rfl rfl

/-! ## Checks -/

/-- Every row satisfies the checks of its table. -/
def Checked (db : ReconciliationDb) : Prop :=
  ∀ d row, db.reconciliations.lookup d = some row → row.checks = true

theorem checks_claimed {row : RuntimeReconciliationRow} (h : row.checks = true)
    (hstate : row.state = .claimed) : row.leaseOwner.isSome = true ∧ row.claimToken.isSome = true
      ∧ row.completedAt = none := by
  simp only [RuntimeReconciliationRow.checks, hstate, if_true, reduceCtorEq, or_self, if_false,
    Bool.and_eq_true, Option.isNone_iff_eq_none] at h
  exact ⟨h.1.1.1, h.1.2, h.2⟩

theorem exec_ne_checkViolation (hdb : Checked db) (call : ReconciliationCall) :
    call.exec now db ≠ .error .checkViolation := by
  cases call with
  | request d action requestedBy =>
    refine map_ne ?_
    unfold ReconciliationDb.request
    split
    · exact nofun
    split
    · exact bind_ne (insert_ne (by simp [RuntimeReconciliationRow.checks])) fun _ ↦ ok_ne
    · split
      · exact nofun
      · exact bind_ne (put_ne (by simp [RuntimeReconciliationRow.checks])) fun _ ↦ ok_ne
  | scheduleAutomatic candidates => exact map_ne scheduleAutomatic_ne
  | claimNext workerId duration token locked =>
    change db.claimNext workerId duration token locked now ≠ _
    unfold ReconciliationDb.claimNext
    split
    · exact ok_ne
    · exact bind_ne (put_ne (by simp [RuntimeReconciliationRow.checks])) fun _ ↦ ok_ne
  | renew claim duration =>
    refine map_ne (bind_ne (updateFenced_ne fun row hrow hstate ↦ ?_) fun _ ↦ ok_ne)
    obtain ⟨howner, htoken, hcompleted⟩ := checks_claimed (hdb _ row hrow) hstate
    simp [RuntimeReconciliationRow.checks, hstate, howner, htoken, hcompleted]
  | resolve claim result code =>
    refine map_ne ?_
    unfold ReconciliationDb.resolve
    split
    · exact nofun
    · exact updateFenced_ne fun row _ _ ↦ by simp [RuntimeReconciliationRow.checks]
  | block claim code =>
    exact map_ne (updateFenced_ne fun row _ _ ↦ by simp [RuntimeReconciliationRow.checks])
  | retry claim availableAt code =>
    exact map_ne (updateFenced_ne fun row _ _ ↦ by simp [RuntimeReconciliationRow.checks])

end ReconciliationCall

end Heimdall
