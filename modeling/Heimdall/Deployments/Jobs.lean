import Heimdall.Deployments.Repository
import Heimdall.Effect.Fallible
import Heimdall.Effect.Table

/-!
# Deployments and their jobs

An operation rewrites the two rows of one deployment and appends at most one event. There are four
kinds: a deployment is created (`CreateCommit`), a worker takes its job (`ClaimCommit`), works under
its claim (`WorkCommit`), or the reconciliation settles a failure that was left in doubt
(`ReconcileCommit`). Under a claim a deployment that has ended stays as it was
(`WorkCommit.ended`) and no other token gets into the job row (`WorkCommit.token`).

Each kind is an `Update`: it leaves a deployment and a job that agree, and a project with at most one
deployment under way.
-/

namespace Heimdall

/-- A deployment and its job tell the same story. -/
structure JobAgrees (row : Deployment) (job : DeploymentJobRow) : Prop where
  done : job.state = .done ↔ row.status = .succeeded ∨ row.status = .failed
  terminalAt : (row.status = .succeeded ∨ row.status = .failed) ↔ row.terminalAt ≠ none
  queued : row.status = .queued ↔ job.state = .pending

theorem DeploymentStatus.isTerminal_iff {s : DeploymentStatus} :
    s.isTerminal = true ↔ s = .succeeded ∨ s = .failed := by
  cases s <;> simp [isTerminal]

namespace DeploymentDb

variable {db db' : DeploymentDb} {d : Uuid} {row : Deployment} {job : DeploymentJobRow}
  {claim : DeploymentJobClaim} {now : Time} {eventId : ℕ}

/-! ## Statements -/

/-- No other deployment of the project is under way. -/
def ActiveFree (db : DeploymentDb) (d : Uuid) (row : Deployment) : Prop :=
  row.status.isTerminal = false → ∀ e other, e ≠ d → db.deployments.lookup e = some other →
    other.projectId = row.projectId → other.status.isTerminal = true

theorem putDeployment_ok (h : db.putDeployment d row = .ok db') :
    db.ActiveFree d row ∧ db' = { db with deployments := db.deployments.insert d row } := by
  unfold putDeployment at h
  split at h
  · simp at h
  split at h
  · simp at h
  split at h
  · simp at h
  · rename_i hactive
    refine ⟨fun hstatus e other he hother hproject ↦ ?_, by simpa using h.symm⟩
    have hmem : (⟨e, other⟩ : Sigma fun _ : Uuid ↦ Deployment) ∈ db.deployments.entries :=
      AList.mem_lookup_iff.mp hother
    simp only [activeViolated, hstatus, Bool.not_false, Bool.true_and, Bool.not_eq_true,
      List.any_eq_false] at hactive
    simpa [he, hproject] using hactive _ hmem

theorem putJob_ok (h : db.putJob d job = .ok db') :
    db' = { db with jobs := db.jobs.insert d job } := by
  unfold putJob at h
  split at h
  · simp at h
  · simpa using h.symm

theorem insertEvent_ok {event : DeploymentEvent} (h : db.insertEvent event = .ok db') :
    db' = { db with events := db.events ++ [event] } := by
  unfold insertEvent at h
  split at h
  · simp at h
  split at h
  · simp at h
  · simpa using h.symm

theorem insertDiagnostic_ok {a : DiagnosticArtifactRow} (h : db.insertDiagnostic a = .ok db') :
    ∃ diagnostics, db' = { db with diagnostics := diagnostics } := by
  unfold insertDiagnostic at h
  split at h
  · simp at h
  split at h
  · simp at h
  split at h
  · exact ⟨db.diagnostics, by simpa using h.symm⟩
  · exact ⟨_, (Except.ok.inj h).symm⟩

theorem insertDiagnosticArtifacts_ok {stage code : String} {retention : Time}
    {artifacts : List (Uuid × DiagnosticArtifactDraft)}
    (h : insertDiagnosticArtifacts d eventId stage code retention db artifacts = .ok db') :
    ∃ diagnostics, db' = { db with diagnostics := diagnostics } := by
  induction artifacts generalizing db with
  | nil => exact ⟨db.diagnostics, by simpa [insertDiagnosticArtifacts] using h.symm⟩
  | cons head rest ih =>
    simp only [insertDiagnosticArtifacts] at h
    split at h
    · simp at h
    · obtain ⟨db₁, hfirst, h⟩ := bind_eq_ok h
      obtain ⟨_, rfl⟩ := insertDiagnostic_ok hfirst
      obtain ⟨diagnostics, rfl⟩ := ih h
      exact ⟨diagnostics, rfl⟩

theorem holdsClaim_iff : holdsClaim job claim now = true ↔ job.state = .claimed
    ∧ job.leaseOwner = some claim.workerId ∧ job.claimToken = some claim.token
    ∧ ∃ lease, job.leaseExpiresAt = some lease ∧ now < lease := by
  simp only [holdsClaim, Bool.and_eq_true, beq_iff_eq, Option.any_eq_true, decide_eq_true_eq,
    and_assoc]

theorem lockClaim_ok (h : db.lockClaim claim now = .ok ()) :
    ∃ job, db.jobs.lookup claim.deployment.id = some job ∧ holdsClaim job claim now = true := by
  unfold lockClaim at h
  split at h
  · rename_i hany
    simpa [Option.any_eq_true] using hany
  · simp at h

theorem updateProcessing_ok {set : Deployment → Deployment} {r : Deployment}
    (h : db.updateProcessing claim set = .ok (r, db')) :
    ∃ row, db.deployments.lookup claim.deployment.id = some row ∧ row.status.isTerminal = false
      ∧ db' = { db with deployments := db.deployments.insert claim.deployment.id (set row) } := by
  unfold updateProcessing at h
  split at h
  · rename_i row hrow
    split at h
    · simp at h
    · rename_i hterminal
      obtain ⟨db₁, hput, h⟩ := bind_eq_ok h
      obtain ⟨-, rfl⟩ := putDeployment_ok hput
      cases h
      exact ⟨row, hrow, by simpa using hterminal, rfl⟩
  · simp at h

theorem releaseJob_ok {set : DeploymentJobRow → DeploymentJobRow}
    (h : db.releaseJob claim set = .ok db') :
    ∃ job, db.jobs.lookup claim.deployment.id = some job
      ∧ db' = { db with jobs := db.jobs.insert claim.deployment.id { set job with
          leaseOwner := none, leaseExpiresAt := none, claimToken := none } } := by
  unfold releaseJob at h
  split at h
  · rename_i job hjob
    split at h
    · exact ⟨job, hjob, putJob_ok h⟩
    · simp at h
  · simp at h

theorem asActive_ok {α : Type} {x : Except Exc α} {a : α} (h : asActive x = .ok a) : x = .ok a := by
  unfold asActive at h
  split at h
  · simp at h
  · exact h

/-! ## Commits -/

/-- `db'` differs from `db` in the two rows of one deployment, in events at the end and in the
diagnostics. -/
structure Writes (db db' : DeploymentDb) (d : Uuid) (row : Deployment) (job : DeploymentJobRow)
    (events : List DeploymentEvent) : Prop where
  projects : db'.projects = db.projects
  deployments : ∀ q, db'.deployments.lookup q = if q = d then some row else db.deployments.lookup q
  jobs : ∀ q, db'.jobs.lookup q = if q = d then some job else db.jobs.lookup q
  events : db'.events = db.events ++ events

/-- At most one event is appended to a deployment, with the number that was drawn for it. -/
def EventOf (d : Uuid) (eventId : ℕ) (events : List DeploymentEvent) : Prop :=
  events.length ≤ 1 ∧ ∀ e ∈ events, e.deploymentId = d ∧ e.id = eventId

theorem eventOf_singleton {event : DeploymentEvent} (hd : event.deploymentId = d)
    (hid : event.id = eventId) : EventOf d eventId [event] := by
  refine ⟨le_rfl, fun e he ↦ ?_⟩
  obtain rfl := List.mem_singleton.mp he
  exact ⟨hd, hid⟩

/-- What an operation leaves of a deployment: whose it is, and what is deployed. -/
structure Frozen (old row : Deployment) : Prop where
  project : row.projectId = old.projectId
  version : row.configVersion = old.configVersion
  snapshot : row.configSnapshot = old.configSnapshot

theorem Frozen.refl (row : Deployment) : Frozen row row := ⟨rfl, rfl, rfl⟩

/-- The commit of an operation under a claim. -/
structure WorkCommit (db db' : DeploymentDb) (claim : DeploymentJobClaim) (eventId : ℕ)
    (now : Time) (old : Deployment) (oldJob : DeploymentJobRow) (row : Deployment)
    (job : DeploymentJobRow) (events : List DeploymentEvent) : Prop where
  found : db.deployments.lookup claim.deployment.id = some old
  foundJob : db.jobs.lookup claim.deployment.id = some oldJob
  held : holdsClaim oldJob claim now = true
  writes : Writes db db' claim.deployment.id row job events
  id : row.id = old.id
  frozen : Frozen old row
  ended : old.status.isTerminal = true → row = old
  agrees : JobAgrees old oldJob → JobAgrees row job
  token : job.state = .claimed → job.claimToken = oldJob.claimToken
  event : EventOf claim.deployment.id eventId events
  /-- The transaction that ends a deployment appends an event. -/
  terminal : old.status.isTerminal = false → row.status.isTerminal = true → events ≠ []

/-- Lock, update the deployment, give the lease up, append the event: how a claim is finished. -/
theorem finish_ok {db₁ db₂ : DeploymentDb} {set : Deployment → Deployment}
    {setJob : DeploymentJobRow → DeploymentJobRow} {event : DeploymentEvent} {r : Deployment}
    (hlock : db.lockClaim claim now = .ok ())
    (hrow : db.updateProcessing claim set = .ok (r, db₁))
    (hjob : db₁.releaseJob claim setJob = .ok db₂) (hevent : db₂.insertEvent event = .ok db')
    (hid : event.id = eventId ∧ event.deploymentId = claim.deployment.id)
    (hid' : ∀ row, (set row).id = row.id)
    (hfrozen : ∀ row, Frozen row (set row))
    (hstate : ∀ job, (setJob job).state ≠ .claimed)
    (hagrees : ∀ row job, JobAgrees (set row)
      { setJob job with leaseOwner := none, leaseExpiresAt := none, claimToken := none }) :
    ∃ old oldJob row job events,
      db.WorkCommit db' claim eventId now old oldJob row job events := by
  obtain ⟨job, hj, hheld⟩ := lockClaim_ok hlock
  obtain ⟨old, hold, hprocessing, rfl⟩ := updateProcessing_ok hrow
  obtain ⟨job', hj', rfl⟩ := releaseJob_ok hjob
  obtain rfl := insertEvent_ok hevent
  obtain rfl : job = job' := Option.some.inj (hj.symm.trans hj')
  refine ⟨old, job, _, _, [event], hold, hj, hheld,
    ⟨rfl, lookup_insert' _ _ _, lookup_insert' _ _ _, rfl⟩, hid' old, hfrozen old, fun h ↦ ?_,
    fun _ ↦ hagrees old job, fun h ↦ absurd h (hstate job), eventOf_singleton hid.2 hid.1,
    fun _ _ ↦ by simp⟩
  rw [hprocessing] at h
  cases h

theorem succeed_ok {r : Deployment} (h : db.succeed claim eventId now = .ok (r, db')) :
    ∃ old oldJob row job events,
      db.WorkCommit db' claim eventId now old oldJob row job events := by
  obtain ⟨⟨⟩, hlock, h⟩ := bind_eq_ok h
  obtain ⟨⟨r₁, db₁⟩, hrow, h⟩ := bind_eq_ok h
  obtain ⟨db₂, hjob, h⟩ := bind_eq_ok h
  obtain ⟨db₃, hevent, h⟩ := bind_eq_ok h
  cases h
  refine finish_ok hlock hrow hjob hevent ⟨rfl, rfl⟩ (fun _ ↦ rfl) (fun _ ↦ ⟨rfl, rfl, rfl⟩)
    (fun _ ↦ by simp) fun _ _ ↦ ?_
  constructor <;> simp

theorem fail_ok {r : Deployment} {stage code : String}
    (h : db.fail claim stage code eventId now = .ok (r, db')) :
    ∃ old oldJob row job events,
      db.WorkCommit db' claim eventId now old oldJob row job events := by
  obtain ⟨⟨⟩, hlock, h⟩ := bind_eq_ok h
  obtain ⟨⟨r₁, db₁⟩, hrow, h⟩ := bind_eq_ok h
  obtain ⟨db₂, hjob, h⟩ := bind_eq_ok h
  obtain ⟨db₃, hevent, h⟩ := bind_eq_ok h
  cases h
  refine finish_ok hlock hrow hjob hevent ⟨rfl, rfl⟩ (fun _ ↦ rfl) (fun _ ↦ ⟨rfl, rfl, rfl⟩)
    (fun _ ↦ by simp) fun _ _ ↦ ?_
  constructor <;> simp

theorem retry_ok {r : Deployment} {availableAt : Time} {stage code : String}
    (h : db.retry claim availableAt stage code eventId now = .ok (r, db')) :
    ∃ old oldJob row job events,
      db.WorkCommit db' claim eventId now old oldJob row job events := by
  obtain ⟨⟨⟩, hlock, h⟩ := bind_eq_ok h
  obtain ⟨⟨r₁, db₁⟩, hrow, h⟩ := bind_eq_ok h
  obtain ⟨db₂, hjob, h⟩ := bind_eq_ok h
  obtain ⟨db₃, hevent, h⟩ := bind_eq_ok h
  cases h
  refine finish_ok hlock hrow hjob hevent ⟨rfl, rfl⟩ (fun _ ↦ rfl) (fun _ ↦ ⟨rfl, rfl, rfl⟩)
    (fun _ ↦ by simp) fun _ _ ↦ ?_
  constructor <;> simp

theorem advance_ok {r : Deployment} {status : DeploymentStatus} {code message : String}
    (h : db.advance claim status code message eventId now = .ok (r, db')) :
    ∃ old oldJob row job events,
      db.WorkCommit db' claim eventId now old oldJob row job events := by
  unfold advance at h
  split at h
  · simp at h
  · rename_i hstatus
    simp only [List.mem_cons, List.not_mem_nil, or_false, not_or] at hstatus
    obtain ⟨hqueued, hsucceeded, hfailed⟩ := hstatus
    obtain ⟨⟨⟩, hlock, h⟩ := bind_eq_ok h
    obtain ⟨⟨r₁, db₁⟩, hrow, h⟩ := bind_eq_ok h
    obtain ⟨db₂, hevent, h⟩ := bind_eq_ok h
    cases h
    obtain ⟨job, hj, hheld⟩ := lockClaim_ok hlock
    obtain ⟨old, hold, hprocessing, rfl⟩ := updateProcessing_ok hrow
    obtain rfl := insertEvent_ok hevent
    refine ⟨old, job, _, job, [_], hold, hj, hheld,
      ⟨rfl, lookup_insert' _ _ _, lookup_self hj, rfl⟩, rfl, ⟨rfl, rfl, rfl⟩, fun h ↦ ?_,
      fun hagrees ↦ ?_, fun _ ↦ rfl, eventOf_singleton rfl rfl, fun _ _ ↦ by simp⟩
    · rw [hprocessing] at h
      cases h
    · have hstate := (holdsClaim_iff.mp hheld).1
      have hopen : ¬(old.status = .succeeded ∨ old.status = .failed) := by
        rw [← DeploymentStatus.isTerminal_iff, hprocessing]
        simp
      have hterminal : ¬old.terminalAt ≠ none := fun h ↦ hopen (hagrees.terminalAt.mpr h)
      constructor
      · simp [hstate, hsucceeded, hfailed]
      · simpa [hsucceeded, hfailed] using hterminal
      · simp [hstate, hqueued]

theorem renew_ok {leaseDuration t : Time} (h : db.renew claim leaseDuration now = .ok (t, db'))
    (hrow : ∀ job, db.jobs.lookup claim.deployment.id = some job →
      ∃ old, db.deployments.lookup claim.deployment.id = some old) :
    ∃ old oldJob row job events,
      db.WorkCommit db' claim eventId now old oldJob row job events := by
  unfold renew at h
  split at h
  · rename_i job hj
    split at h
    · rename_i hheld
      obtain ⟨db₁, hput, h⟩ := bind_eq_ok h
      obtain rfl := putJob_ok hput
      cases h
      obtain ⟨row, hold⟩ := hrow job hj
      refine ⟨row, job, row, _, [], hold, hj, hheld,
        ⟨rfl, lookup_self hold, lookup_insert' _ _ _, (List.append_nil _).symm⟩, rfl, .refl _,
        fun _ ↦ rfl,
        fun hagrees ↦ ?_, fun _ ↦ rfl, ⟨Nat.zero_le 1, fun _ he ↦ nomatch he⟩,
        fun hopen hended ↦ ?_⟩
      · exact ⟨hagrees.done, hagrees.terminalAt, hagrees.queued⟩
      · rw [hopen] at hended
        cases hended
    · simp at h
  · simp at h

theorem recordDiagnostics_ok {event : DeploymentEvent} {report : DiagnosticReport}
    (h : db.recordDiagnostics claim report eventId now = .ok (event, db'))
    (hrow : ∀ job, db.jobs.lookup claim.deployment.id = some job →
      ∃ old, db.deployments.lookup claim.deployment.id = some old) :
    ∃ old oldJob row job events,
      db.WorkCommit db' claim eventId now old oldJob row job events := by
  unfold recordDiagnostics at h
  split at h
  · simp at h
  · obtain ⟨⟨⟩, hlock, h⟩ := bind_eq_ok h
    obtain ⟨db₁, hevent, h⟩ := bind_eq_ok h
    obtain ⟨db₂, hartifacts, h⟩ := bind_eq_ok h
    cases h
    obtain ⟨job, hj, hheld⟩ := lockClaim_ok hlock
    obtain rfl := insertEvent_ok hevent
    obtain ⟨diagnostics, rfl⟩ := insertDiagnosticArtifacts_ok hartifacts
    obtain ⟨row, hold⟩ := hrow job hj
    exact ⟨row, job, row, job, [diagnosticEvent claim.deployment.id report eventId now], hold, hj,
      hheld, ⟨rfl, lookup_self hold, lookup_self hj, rfl⟩, rfl, .refl _, fun _ ↦ rfl,
      fun hagrees ↦ hagrees, fun _ ↦ rfl, eventOf_singleton rfl rfl, fun _ _ ↦ by simp⟩

/-- The commit of `create`: a deployment that waits for a worker, the only one of its project that is
under way. -/
structure CreateCommit (db db' : DeploymentDb) (d : Uuid) (row : Deployment)
    (job : DeploymentJobRow) : Prop where
  fresh : db.deployments.lookup d = none
  id : row.id = d
  active : db.ActiveFree d row
  writes : Writes db db' d row job []
  agrees : JobAgrees row job
  status : row.status = .queued
  state : job.state = .pending

theorem create_ok {request : DeploymentRequest} {r : Deployment}
    (h : db.create d request now = .ok (r, db')) : ∃ row job, db.CreateCommit db' d row job := by
  have h := asActive_ok h
  split at h
  · simp at h
  · obtain ⟨db₁, hrow, h⟩ := bind_eq_ok h
    obtain ⟨db₂, hjob, h⟩ := bind_eq_ok h
    cases h
    unfold insertDeployment at hrow
    split at hrow
    · simp at hrow
    rename_i hnone
    split at hrow
    · simp at hrow
    obtain ⟨hactive, rfl⟩ := putDeployment_ok hrow
    unfold insertJob at hjob
    split at hjob
    · simp at hjob
    obtain rfl := putJob_ok hjob
    refine ⟨_, _, by simpa using hnone, rfl, hactive, ⟨rfl, lookup_insert' _ _ _, lookup_insert' _ _ _,
      (List.append_nil _).symm⟩, ?_, rfl, rfl⟩
    constructor <;> simp

/-- What `create` inserts for a project that is there and not being deleted. -/
theorem create_row {request : DeploymentRequest} {r : Deployment}
    (h : db.create d request now = .ok (r, db')) :
    db.projects request.projectId ≠ some .deleting
      ∧ (db.projects request.projectId).isSome = true
      ∧ db'.deployments = db.deployments.insert d r ∧ r.projectId = request.projectId
      ∧ r.configVersion = request.configVersion ∧ r.configSnapshot = request.configSnapshot := by
  have h := asActive_ok h
  split at h
  · cases h
  next hlive =>
  obtain ⟨db₁, hrow, h⟩ := bind_eq_ok h
  obtain ⟨db₂, hjob, h⟩ := bind_eq_ok h
  cases h
  unfold insertDeployment at hrow
  split at hrow
  · cases hrow
  split at hrow
  · cases hrow
  next hproject =>
  obtain ⟨-, rfl⟩ := putDeployment_ok hrow
  unfold insertJob at hjob
  split at hjob
  · cases hjob
  obtain rfl := putJob_ok hjob
  exact ⟨hlive, by simpa [Option.isSome_iff_ne_none] using hproject, rfl, rfl, rfl, rfl⟩

/-- The commit of a `claim_next` that takes a job. -/
structure ClaimCommit (db db' : DeploymentDb) (workerId : String) (token : Uuid) (eventId : ℕ)
    (claim : DeploymentJobClaim) (d : Uuid) (old row : Deployment) (job : DeploymentJobRow)
    (events : List DeploymentEvent) : Prop where
  found : db.deployments.lookup d = some old
  writes : Writes db db' d row job events
  processing : old.status.isTerminal = false
  id : row.id = old.id
  frozen : Frozen old row
  status : row.status = .preparing
  agrees : JobAgrees row job
  state : job.state = .claimed
  jobToken : job.claimToken = some token
  claimed : claim.deployment = row ∧ claim.token = token ∧ claim.workerId = workerId
  event : EventOf d eventId events

theorem claimNext_ok {workerId : String} {leaseDuration : Time} {token : Uuid}
    {locked : Uuid → Bool} {r : Option DeploymentJobClaim}
    (h : db.claimNext workerId leaseDuration token locked eventId now = .ok (r, db')) :
    (r = none ∧ db' = db) ∨ ∃ claim d old row job events, r = some claim
      ∧ db.ClaimCommit db' workerId token eventId claim d old row job events := by
  unfold claimNext at h
  split at h
  · cases h
    exact .inl ⟨rfl, rfl⟩
  · rename_i d job hnext
    obtain ⟨hjob, hcond⟩ := lookup_of_first hnext
    obtain ⟨db₁, hput, h⟩ := bind_eq_ok h
    obtain rfl := putJob_ok hput
    split at h
    · simp at h
    · rename_i row hrow
      obtain ⟨db₂, hroute, h⟩ := bind_eq_ok h
      obtain ⟨-, rfl⟩ := putDeployment_ok hroute
      obtain ⟨db₃, hevent, h⟩ := bind_eq_ok h
      obtain rfl := insertEvent_ok hevent
      cases h
      simp only [claimable, hrow, Bool.and_eq_true, Option.any_some, Bool.not_eq_true'] at hcond
      refine .inr ⟨_, d, row, _, _, [_], rfl, hrow, ⟨rfl, lookup_insert' _ _ _,
        lookup_insert' _ _ _, rfl⟩, hcond.1.2, rfl, ⟨rfl, rfl, rfl⟩, rfl, ?_, rfl, rfl, ⟨rfl, rfl, rfl⟩,
        eventOf_singleton rfl rfl⟩
      constructor <;> simp

/-- The commit of an operation of the reconciliation on a deployment that failed in doubt. -/
structure ReconcileCommit (db db' : DeploymentDb) (d : Uuid) (eventId : ℕ) (old : Deployment)
    (row : Deployment) (job : DeploymentJobRow) (events : List DeploymentEvent) : Prop where
  found : db.deployments.lookup d = some old
  uncertain : isUncertain old = true
  foundJob : db.jobs.lookup d = some job
  writes : Writes db db' d row job events
  id : row.id = old.id
  frozen : Frozen old row
  ended : row.status.isTerminal = true
  agrees : JobAgrees old job → JobAgrees row job
  event : EventOf d eventId events

theorem isUncertain_iff : isUncertain row = true ↔ row.status = .failed
    ∧ row.failureStage = some "RECOVERY" ∧ row.failureCode = some "RECOVERY_STATE_UNCERTAIN" := by
  simp only [isUncertain, Bool.and_eq_true, beq_iff_eq, and_assoc]

theorem reconcileSucceeded_ok {r : Deployment}
    (h : db.reconcileSucceeded d eventId now = .ok (r, db')) (hjob : ∀ old,
      db.deployments.lookup d = some old → ∃ job, db.jobs.lookup d = some job) :
    db' = db ∨ ∃ old row job events,
      row.status = .succeeded ∧ db.ReconcileCommit db' d eventId old row job events := by
  unfold reconcileSucceeded at h
  split at h
  · simp at h
  · rename_i current hcurrent
    split at h
    · cases h
      exact .inl rfl
    · split at h
      · rename_i huncertain
        obtain ⟨db₁, hput, h⟩ := bind_eq_ok h
        obtain ⟨-, rfl⟩ := putDeployment_ok hput
        obtain ⟨db₂, hevent, h⟩ := bind_eq_ok h
        obtain rfl := insertEvent_ok hevent
        cases h
        obtain ⟨job, hjob⟩ := hjob current hcurrent
        refine .inr ⟨current, _, job, [_], rfl, hcurrent, huncertain, hjob,
          ⟨rfl, lookup_insert' _ _ _, lookup_self hjob, rfl⟩, rfl, ⟨rfl, rfl, rfl⟩, rfl,
          fun hagrees ↦ ?_,
          eventOf_singleton rfl rfl⟩
        have hdone := hagrees.done.mpr (.inr (isUncertain_iff.mp huncertain).1)
        constructor <;> simp [hdone]
      · simp at h

theorem reconcileSucceeded_status {r : Deployment}
    (h : db.reconcileSucceeded d eventId now = .ok (r, db')) :
    ∃ row, db'.deployments.lookup d = some row ∧ row.status = .succeeded := by
  unfold reconcileSucceeded at h
  split at h
  · cases h
  next current hcurrent =>
  split at h
  · next hstatus =>
    cases h
    exact ⟨_, hcurrent, hstatus⟩
  split at h
  · obtain ⟨db₁, hput, h⟩ := bind_eq_ok h
    obtain ⟨-, rfl⟩ := putDeployment_ok hput
    obtain ⟨db₂, hevent, h⟩ := bind_eq_ok h
    obtain rfl := insertEvent_ok hevent
    cases h
    exact ⟨_, AList.lookup_insert _, rfl⟩
  · cases h

theorem recordReconciliationDiagnostics_ok {event : DeploymentEvent} {report : DiagnosticReport}
    (h : db.recordReconciliationDiagnostics d report eventId now = .ok (event, db'))
    (hjob : ∀ old, db.deployments.lookup d = some old → ∃ job, db.jobs.lookup d = some job) :
    ∃ old job events, db.ReconcileCommit db' d eventId old old job events := by
  unfold recordReconciliationDiagnostics at h
  split at h
  · simp at h
  · split at h
    · simp at h
    · rename_i current hcurrent
      split at h
      · rename_i huncertain
        obtain ⟨db₁, hevent, h⟩ := bind_eq_ok h
        obtain ⟨db₂, hartifacts, h⟩ := bind_eq_ok h
        cases h
        obtain rfl := insertEvent_ok hevent
        obtain ⟨diagnostics, rfl⟩ := insertDiagnosticArtifacts_ok hartifacts
        obtain ⟨job, hjob⟩ := hjob current hcurrent
        refine ⟨current, job, [diagnosticEvent d report eventId now], hcurrent, huncertain, hjob,
          ⟨rfl, lookup_self hcurrent, lookup_self hjob, rfl⟩, rfl, .refl _, ?_,
          fun hagrees ↦ hagrees, eventOf_singleton rfl rfl⟩
        rw [(isUncertain_iff.mp huncertain).1]
        rfl
      · simp at h

/-! ## Consistent tables -/

/-- The two tables agree and no project has two deployments under way. -/
structure Consistent (db : DeploymentDb) : Prop where
  ids : ∀ d row, db.deployments.lookup d = some row → row.id = d
  exists_iff : ∀ d, (∃ row, db.deployments.lookup d = some row) ↔ ∃ job, db.jobs.lookup d = some job
  agree : ∀ d row job, db.deployments.lookup d = some row → db.jobs.lookup d = some job →
    JobAgrees row job
  oneActive : ∀ d e a b, db.deployments.lookup d = some a → db.deployments.lookup e = some b →
    a.projectId = b.projectId → a.status.isTerminal = false → b.status.isTerminal = false → d = e

/-- A commit that keeps the tables consistent. -/
structure Update (db db' : DeploymentDb) (eventId : ℕ) (d : Uuid) (row : Deployment)
    (job : DeploymentJobRow) (events : List DeploymentEvent) : Prop where
  writes : Writes db db' d row job events
  id : row.id = d
  agrees : JobAgrees row job
  active : db.ActiveFree d row
  event : EventOf d eventId events

theorem Consistent.update (hc : db.Consistent) {events : List DeploymentEvent}
    (hu : db.Update db' eventId d row job events) : db'.Consistent := by
  have hw := hu.writes
  constructor
  · intro q r hr
    rw [hw.deployments] at hr
    split_ifs at hr with hq
    · cases hr
      exact hu.id.trans hq.symm
    · exact hc.ids q r hr
  · intro q
    rw [hw.deployments, hw.jobs]
    split_ifs with hq
    · simp
    · exact hc.exists_iff q
  · intro q r j hr hj
    rw [hw.deployments] at hr
    rw [hw.jobs] at hj
    split_ifs at hr hj with hq
    · cases hr
      cases hj
      exact hu.agrees
    · exact hc.agree q r j hr hj
  · intro q e a b ha hb hproject hopenA hopenB
    rw [hw.deployments] at ha hb
    split_ifs at ha hb with hq he he
    · exact hq.trans he.symm
    · cases ha
      have hended := hu.active hopenA e b he hb hproject.symm
      rw [hopenB] at hended
      cases hended
    · cases hb
      have hended := hu.active hopenB q a hq ha hproject
      rw [hopenA] at hended
      cases hended
    · exact hc.oneActive q e a b ha hb hproject hopenA hopenB

/-- The only deployment under way stays the only one. -/
theorem Consistent.activeFree (hc : db.Consistent) {old : Deployment}
    (hold : db.deployments.lookup d = some old) (hproject : row.projectId = old.projectId)
    (hopen : row.status.isTerminal = false → old.status.isTerminal = false) :
    db.ActiveFree d row := by
  intro hrow e other he hother hsame
  by_contra hne
  have hotherOpen : other.status.isTerminal = false := by simpa using hne
  exact he (hc.oneActive e d other old hother hold (hsame.trans hproject) hotherOpen (hopen hrow))

theorem CreateCommit.update (h : db.CreateCommit db' d row job) :
    db.Update db' eventId d row job [] :=
  ⟨h.writes, h.id, h.agrees, h.active, Nat.zero_le 1, fun _ he ↦ nomatch he⟩

theorem ClaimCommit.update (hc : db.Consistent) {workerId : String} {token : Uuid}
    {old : Deployment} {events : List DeploymentEvent}
    (h : db.ClaimCommit db' workerId token eventId claim d old row job events) :
    db.Update db' eventId d row job events :=
  ⟨h.writes, h.id.trans (hc.ids d old h.found), h.agrees,
    hc.activeFree h.found h.frozen.project fun _ ↦ h.processing, h.event⟩

theorem WorkCommit.update (hc : db.Consistent) {old : Deployment} {oldJob : DeploymentJobRow}
    {events : List DeploymentEvent}
    (h : db.WorkCommit db' claim eventId now old oldJob row job events) :
    db.Update db' eventId claim.deployment.id row job events := by
  refine ⟨h.writes, h.id.trans (hc.ids _ old h.found),
    h.agrees (hc.agree _ old oldJob h.found h.foundJob),
    hc.activeFree h.found h.frozen.project fun hopen ↦ ?_, h.event⟩
  by_contra hne
  have hended : old.status.isTerminal = true := by simpa using hne
  rw [h.ended hended, hended] at hopen
  cases hopen

theorem ReconcileCommit.update (hc : db.Consistent) {old : Deployment}
    {events : List DeploymentEvent}
    (h : db.ReconcileCommit db' d eventId old row job events) :
    db.Update db' eventId d row job events := by
  refine ⟨h.writes, h.id.trans (hc.ids d old h.found), h.agrees (hc.agree d old job h.found h.foundJob),
    fun hopen ↦ ?_, h.event⟩
  rw [h.ended] at hopen
  cases hopen

end DeploymentDb

end Heimdall
