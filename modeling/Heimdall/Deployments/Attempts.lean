import Heimdall.Deployments.History
import Heimdall.Deployments.Worker
import Heimdall.Effect.Pool
import Heimdall.Effect.Record

/-!
# Attempts at a deployment

The column `attempts` counts the claims on a job, whatever became of them: a worker that crashed has
used up an attempt as much as one that scheduled a retry. Nothing but `claim_next` changes it, so the
claims on a deployment have different numbers, and the number of a claim bounds how many there were
before it.
-/

namespace Heimdall

open Effect

namespace DeploymentDb

variable {db db' : DeploymentDb} {d : Uuid} {claim : DeploymentJobClaim} {eventId : ℕ} {now : Time}

/-- The jobs are still there, and their counters do not go back. -/
def CountsUp (db db' : DeploymentDb) : Prop :=
  ∀ d job, db.jobs.lookup d = some job →
    ∃ job', db'.jobs.lookup d = some job' ∧ job.attempts ≤ job'.attempts

theorem CountsUp.of_jobs (h : db'.jobs = db.jobs) : CountsUp db db' :=
  fun _ job hjob ↦ ⟨job, h ▸ hjob, le_rfl⟩

theorem CountsUp.of_insert {job' : DeploymentJobRow} (h : db'.jobs = db.jobs.insert d job')
    (hjob' : ∀ job, db.jobs.lookup d = some job → job.attempts ≤ job'.attempts) :
    CountsUp db db' := by
  intro e job hjob
  rw [h, lookup_insert']
  split_ifs with he
  · exact ⟨job', rfl, hjob' job (he ▸ hjob)⟩
  · exact ⟨job, hjob, le_rfl⟩

/-- Lock, update the deployment, give the lease up, append the event. -/
theorem CountsUp.of_finish {db₁ db₂ : DeploymentDb} {set : Deployment → Deployment}
    {setJob : DeploymentJobRow → DeploymentJobRow} {event : DeploymentEvent} {r : Deployment}
    (hrow : db.updateProcessing claim set = .ok (r, db₁))
    (hjob : db₁.releaseJob claim setJob = .ok db₂) (hevent : db₂.insertEvent event = .ok db')
    (hset : ∀ job, (setJob job).attempts = job.attempts) : CountsUp db db' := by
  obtain ⟨old, -, -, rfl⟩ := updateProcessing_ok hrow
  obtain ⟨job, hlookup, rfl⟩ := releaseJob_ok hjob
  obtain rfl := insertEvent_ok hevent
  refine CountsUp.of_insert rfl fun job' hjob' ↦ ?_
  obtain rfl := Option.some.inj (hlookup.symm.trans hjob')
  exact (hset job).ge

/-- The deployment has ended. -/
def Terminal (db : DeploymentDb) (d : Uuid) : Prop :=
  ∃ row, db.deployments.lookup d = some row ∧ row.status.isTerminal = true

/-- A claim is finished with the deployment in the state that was set. -/
theorem terminal_of_finish {db₁ db₂ : DeploymentDb} {set : Deployment → Deployment}
    {setJob : DeploymentJobRow → DeploymentJobRow} {event : DeploymentEvent} {r : Deployment}
    (hrow : db.updateProcessing claim set = .ok (r, db₁))
    (hjob : db₁.releaseJob claim setJob = .ok db₂) (hevent : db₂.insertEvent event = .ok db')
    (hset : ∀ row, (set row).status.isTerminal = true) : db'.Terminal claim.deployment.id := by
  obtain ⟨old, -, -, rfl⟩ := updateProcessing_ok hrow
  obtain ⟨job, -, rfl⟩ := releaseJob_ok hjob
  obtain rfl := insertEvent_ok hevent
  exact ⟨set old, AList.lookup_insert _, hset old⟩

theorem fail_terminal {stage code : String} {r : Deployment}
    (h : db.fail claim stage code eventId now = .ok (r, db')) :
    db'.Terminal claim.deployment.id := by
  obtain ⟨-, -, h⟩ := bind_eq_ok h
  obtain ⟨⟨r₁, db₁⟩, hrow, h⟩ := bind_eq_ok h
  obtain ⟨db₂, hjob, h⟩ := bind_eq_ok h
  obtain ⟨db₃, hevent, h⟩ := bind_eq_ok h
  cases h
  exact terminal_of_finish hrow hjob hevent fun _ ↦ rfl

theorem succeed_terminal {r : Deployment} (h : db.succeed claim eventId now = .ok (r, db')) :
    db'.Terminal claim.deployment.id := by
  obtain ⟨-, -, h⟩ := bind_eq_ok h
  obtain ⟨⟨r₁, db₁⟩, hrow, h⟩ := bind_eq_ok h
  obtain ⟨db₂, hjob, h⟩ := bind_eq_ok h
  obtain ⟨db₃, hevent, h⟩ := bind_eq_ok h
  cases h
  exact terminal_of_finish hrow hjob hevent fun _ ↦ rfl

/-- What `claim_next` does to the counter of the job it takes. -/
theorem claimNext_counts {workerId : String} {leaseDuration : Time} {token : Uuid}
    {locked : Uuid → Bool} {r : Option DeploymentJobClaim} (hdb : db.Consistent)
    (h : db.claimNext workerId leaseDuration token locked eventId now = .ok (r, db')) :
    CountsUp db db' ∧ ∀ c, r = some c → c.token = token
      ∧ ∃ job job', db.jobs.lookup c.deployment.id = some job ∧ c.attempts = job.attempts + 1
        ∧ db'.jobs.lookup c.deployment.id = some job' ∧ job'.attempts = c.attempts := by
  unfold claimNext at h
  split at h
  · cases h
    exact ⟨.of_jobs rfl, fun c hc ↦ by cases hc⟩
  · rename_i d job hnext
    obtain ⟨hjob, -⟩ := lookup_of_first hnext
    obtain ⟨db₁, hput, h⟩ := bind_eq_ok h
    obtain rfl := putJob_ok hput
    split at h
    · cases h
    · rename_i row hrow
      obtain ⟨db₂, hroute, h⟩ := bind_eq_ok h
      obtain ⟨-, rfl⟩ := putDeployment_ok hroute
      obtain ⟨db₃, hevent, h⟩ := bind_eq_ok h
      obtain rfl := insertEvent_ok hevent
      cases h
      have hid : row.id = d := hdb.ids d row hrow
      refine ⟨.of_insert rfl fun job' hjob' ↦ ?_, fun c hc ↦ ?_⟩
      · obtain rfl := Option.some.inj (hjob.symm.trans hjob')
        exact Nat.le_succ _
      · cases hc
        exact ⟨rfl, job, _, hid ▸ hjob, rfl, (lookup_insert' _ _ _ _).trans (if_pos hid), rfl⟩

end DeploymentDb

/-- No call takes an attempt back. -/
theorem DeploymentCall.countsUp {db db' : DeploymentDb} {eventId : ℕ} {now : Time}
    {call : DeploymentCall} {claim : Option DeploymentJobClaim} (hdb : db.Consistent)
    (h : call.exec eventId now db = .ok (claim, db')) : db.CountsUp db' := by
  cases call with
  | create id request =>
    obtain ⟨r, hr, heq⟩ := map_eq_ok h
    cases heq
    have hr := DeploymentDb.asActive_ok hr
    split at hr
    · cases hr
    obtain ⟨db₁, hrow, hr⟩ := bind_eq_ok hr
    obtain ⟨db₂, hjob, hr⟩ := bind_eq_ok hr
    cases hr
    unfold DeploymentDb.insertDeployment at hrow
    split at hrow
    · cases hrow
    split at hrow
    · cases hrow
    obtain ⟨-, rfl⟩ := DeploymentDb.putDeployment_ok hrow
    unfold DeploymentDb.insertJob at hjob
    split at hjob
    · cases hjob
    · rename_i hnone
      obtain rfl := DeploymentDb.putJob_ok hjob
      refine .of_insert rfl fun job hlookup ↦ ?_
      simp only [hlookup] at hnone
      simp at hnone
  | claimNext workerId duration token locked => exact (DeploymentDb.claimNext_counts hdb h).1
  | renew c duration =>
    obtain ⟨r, hr, heq⟩ := map_eq_ok h
    cases heq
    unfold DeploymentDb.renew at hr
    split at hr
    · rename_i job hjob
      split at hr
      · obtain ⟨db₁, hput, hr⟩ := bind_eq_ok hr
        obtain rfl := DeploymentDb.putJob_ok hput
        cases hr
        refine .of_insert rfl fun job' hjob' ↦ ?_
        obtain rfl := Option.some.inj (hjob.symm.trans hjob')
        exact le_rfl
      · cases hr
    · cases hr
  | advance c status code message =>
    obtain ⟨r, hr, heq⟩ := map_eq_ok h
    cases heq
    unfold DeploymentDb.advance at hr
    split at hr
    · cases hr
    · obtain ⟨-, -, hr⟩ := bind_eq_ok hr
      obtain ⟨⟨r₁, db₁⟩, hrow, hr⟩ := bind_eq_ok hr
      obtain ⟨db₂, hevent, hr⟩ := bind_eq_ok hr
      cases hr
      obtain ⟨old, -, -, rfl⟩ := DeploymentDb.updateProcessing_ok hrow
      obtain rfl := DeploymentDb.insertEvent_ok hevent
      exact .of_jobs rfl
  | succeed c =>
    obtain ⟨r, hr, heq⟩ := map_eq_ok h
    cases heq
    obtain ⟨-, -, hr⟩ := bind_eq_ok hr
    obtain ⟨⟨r₁, db₁⟩, hrow, hr⟩ := bind_eq_ok hr
    obtain ⟨db₂, hjob, hr⟩ := bind_eq_ok hr
    obtain ⟨db₃, hevent, hr⟩ := bind_eq_ok hr
    cases hr
    exact .of_finish hrow hjob hevent fun _ ↦ rfl
  | fail c stage code =>
    obtain ⟨r, hr, heq⟩ := map_eq_ok h
    cases heq
    obtain ⟨-, -, hr⟩ := bind_eq_ok hr
    obtain ⟨⟨r₁, db₁⟩, hrow, hr⟩ := bind_eq_ok hr
    obtain ⟨db₂, hjob, hr⟩ := bind_eq_ok hr
    obtain ⟨db₃, hevent, hr⟩ := bind_eq_ok hr
    cases hr
    exact .of_finish hrow hjob hevent fun _ ↦ rfl
  | retry c availableAt stage code =>
    obtain ⟨r, hr, heq⟩ := map_eq_ok h
    cases heq
    obtain ⟨-, -, hr⟩ := bind_eq_ok hr
    obtain ⟨⟨r₁, db₁⟩, hrow, hr⟩ := bind_eq_ok hr
    obtain ⟨db₂, hjob, hr⟩ := bind_eq_ok hr
    obtain ⟨db₃, hevent, hr⟩ := bind_eq_ok hr
    cases hr
    exact .of_finish hrow hjob hevent fun _ ↦ rfl
  | recordDiagnostics c report =>
    obtain ⟨r, hr, heq⟩ := map_eq_ok h
    cases heq
    unfold DeploymentDb.recordDiagnostics at hr
    split at hr
    · cases hr
    · obtain ⟨-, -, hr⟩ := bind_eq_ok hr
      obtain ⟨db₁, hevent, hr⟩ := bind_eq_ok hr
      obtain ⟨db₂, hartifacts, hr⟩ := bind_eq_ok hr
      cases hr
      obtain rfl := DeploymentDb.insertEvent_ok hevent
      obtain ⟨diagnostics, rfl⟩ := DeploymentDb.insertDiagnosticArtifacts_ok hartifacts
      exact .of_jobs rfl
  | recordReconciliationDiagnostics d report =>
    obtain ⟨r, hr, heq⟩ := map_eq_ok h
    cases heq
    unfold DeploymentDb.recordReconciliationDiagnostics at hr
    split at hr
    · cases hr
    split at hr
    · cases hr
    split at hr
    · obtain ⟨db₁, hevent, hr⟩ := bind_eq_ok hr
      obtain ⟨db₂, hartifacts, hr⟩ := bind_eq_ok hr
      cases hr
      obtain rfl := DeploymentDb.insertEvent_ok hevent
      obtain ⟨diagnostics, rfl⟩ := DeploymentDb.insertDiagnosticArtifacts_ok hartifacts
      exact .of_jobs rfl
    · cases hr
  | reconcileSucceeded d =>
    obtain ⟨r, hr, heq⟩ := map_eq_ok h
    cases heq
    unfold DeploymentDb.reconcileSucceeded at hr
    split at hr
    · cases hr
    split at hr
    · cases hr
      exact .of_jobs rfl
    split at hr
    · obtain ⟨db₁, hput, hr⟩ := bind_eq_ok hr
      obtain ⟨-, rfl⟩ := DeploymentDb.putDeployment_ok hput
      obtain ⟨db₂, hevent, hr⟩ := bind_eq_ok hr
      obtain rfl := DeploymentDb.insertEvent_ok hevent
      cases hr
      exact .of_jobs rfl
    · cases hr

end Heimdall
