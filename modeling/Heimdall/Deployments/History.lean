import Heimdall.Deployments.Jobs

/-!
# Histories of the deployment queue

Any number of requesters and workers run the repository operations in any order; a lease may run out
at any moment. `DeploymentHistory` keeps the tables with the claims that were handed out, latest
first, and with the numbers that open transactions have drawn from the event sequence.

## Numbers of events

A number is drawn before the transaction that uses it commits, so transactions on different
deployments may commit out of the order of their numbers. A transaction draws while it holds the lock
on a row of its deployment, so there is one such transaction for each deployment at a time.

## Tokens

A job row that is claimed carries the token of the latest claim on its deployment. An operation that
presents another token, or a lease that has run out, raises before it writes anything.
-/

namespace Heimdall

/-- One call of a repository operation. -/
inductive DeploymentCall where
  | create (id : Uuid) (request : DeploymentDb.DeploymentRequest)
  | claimNext (workerId : String) (leaseDuration : Time) (token : Uuid) (locked : Uuid → Bool)
  | renew (claim : DeploymentJobClaim) (leaseDuration : Time)
  | advance (claim : DeploymentJobClaim) (status : DeploymentStatus) (code message : String)
  | succeed (claim : DeploymentJobClaim)
  | fail (claim : DeploymentJobClaim) (stage code : String)
  | retry (claim : DeploymentJobClaim) (availableAt : Time) (stage code : String)
  | recordDiagnostics (claim : DeploymentJobClaim) (report : DeploymentDb.DiagnosticReport)
  | recordReconciliationDiagnostics (d : Uuid) (report : DeploymentDb.DiagnosticReport)
  | reconcileSucceeded (d : Uuid)

namespace DeploymentCall

variable {db db' : DeploymentDb} {eventId : ℕ} {now : Time} {call : DeploymentCall}
  {claim : Option DeploymentJobClaim}

/-- Run a call: the claim it hands out, if any, and the tables after its commit. -/
def exec (eventId : ℕ) (now : Time) (db : DeploymentDb) :
    DeploymentCall → Except Exc (Option DeploymentJobClaim × DeploymentDb)
  | .create id request => (db.create id request now).map fun r ↦ (none, r.2)
  | .claimNext workerId leaseDuration token locked =>
    db.claimNext workerId leaseDuration token locked eventId now
  | .renew claim leaseDuration => (db.renew claim leaseDuration now).map fun r ↦ (none, r.2)
  | .advance claim status code message =>
    (db.advance claim status code message eventId now).map fun r ↦ (none, r.2)
  | .succeed claim => (db.succeed claim eventId now).map fun r ↦ (none, r.2)
  | .fail claim stage code => (db.fail claim stage code eventId now).map fun r ↦ (none, r.2)
  | .retry claim availableAt stage code =>
    (db.retry claim availableAt stage code eventId now).map fun r ↦ (none, r.2)
  | .recordDiagnostics claim report =>
    (db.recordDiagnostics claim report eventId now).map fun r ↦ (none, r.2)
  | .recordReconciliationDiagnostics d report =>
    (db.recordReconciliationDiagnostics d report eventId now).map fun r ↦ (none, r.2)
  | .reconcileSucceeded d => (db.reconcileSucceeded d eventId now).map fun r ↦ (none, r.2)

/-- The claim a call presents. -/
def claim? : DeploymentCall → Option DeploymentJobClaim
  | .renew claim _ | .advance claim _ _ _ | .succeed claim | .fail claim _ _ | .retry claim _ _ _
  | .recordDiagnostics claim _ => some claim
  | _ => none

/-- The arguments of the call are refused before a transaction begins. -/
def refused : DeploymentCall → Bool
  | .advance _ status _ _ => decide (status ∈ [.queued, .succeeded, .failed])
  | .recordDiagnostics _ report => decide (report.retention ≤ 0)
  | _ => false

/-- What a call that commits does to the tables. -/
inductive Commits (db db' : DeploymentDb) (eventId : ℕ) (now : Time) :
    DeploymentCall → Option DeploymentJobClaim → Prop
  | idle {call : DeploymentCall} (h : db' = db) : Commits db db' eventId now call none
  | create {id : Uuid} {request : DeploymentDb.DeploymentRequest} {row : Deployment}
    {job : DeploymentJobRow} (hc : db.CreateCommit db' id row job) :
    Commits db db' eventId now (.create id request) none
  | claimNext {workerId : String} {duration : Time} {token : Uuid} {locked : Uuid → Bool}
    {claim : DeploymentJobClaim} {d : Uuid} {old row : Deployment} {job : DeploymentJobRow}
    {events : List DeploymentEvent}
    (hc : db.ClaimCommit db' workerId token eventId claim d old row job events) :
    Commits db db' eventId now (.claimNext workerId duration token locked) (some claim)
  | work {call : DeploymentCall} {claim : DeploymentJobClaim} {old row : Deployment}
    {oldJob job : DeploymentJobRow} {events : List DeploymentEvent}
    (hclaim : call.claim? = some claim)
    (hc : db.WorkCommit db' claim eventId now old oldJob row job events) :
    Commits db db' eventId now call none
  | reconcile {call : DeploymentCall} {d : Uuid} {old row : Deployment} {job : DeploymentJobRow}
    {events : List DeploymentEvent}
    (hcall : (∃ report, call = .recordReconciliationDiagnostics d report) ∧ row = old
      ∨ call = .reconcileSucceeded d ∧ row.status = .succeeded)
    (hc : db.ReconcileCommit db' d eventId old row job events) :
    Commits db db' eventId now call none

theorem exec_ok (hdb : db.Consistent) (h : call.exec eventId now db = .ok (claim, db')) :
    Commits db db' eventId now call claim := by
  have hjob : ∀ d old, db.deployments.lookup d = some old → ∃ job, db.jobs.lookup d = some job :=
    fun d old hold ↦ (hdb.exists_iff d).mp ⟨old, hold⟩
  have hrow : ∀ d job, db.jobs.lookup d = some job → ∃ old, db.deployments.lookup d = some old :=
    fun d job hj ↦ (hdb.exists_iff d).mpr ⟨job, hj⟩
  cases call with
  | create id request =>
    obtain ⟨r, hr, heq⟩ := map_eq_ok h
    cases heq
    obtain ⟨row, job, hc⟩ := DeploymentDb.create_ok hr
    exact .create hc
  | claimNext workerId duration token locked =>
    rcases DeploymentDb.claimNext_ok h with ⟨rfl, heq⟩ | ⟨claim, d, old, row, job, events, rfl, hc⟩
    · exact .idle heq
    · exact .claimNext hc
  | renew claim duration =>
    obtain ⟨r, hr, heq⟩ := map_eq_ok h
    cases heq
    obtain ⟨old, oldJob, row, job, events, hc⟩ := DeploymentDb.renew_ok hr (hrow _)
    exact .work rfl hc
  | advance claim status code message =>
    obtain ⟨r, hr, heq⟩ := map_eq_ok h
    cases heq
    obtain ⟨old, oldJob, row, job, events, hc⟩ := DeploymentDb.advance_ok hr
    exact .work rfl hc
  | succeed claim =>
    obtain ⟨r, hr, heq⟩ := map_eq_ok h
    cases heq
    obtain ⟨old, oldJob, row, job, events, hc⟩ := DeploymentDb.succeed_ok hr
    exact .work rfl hc
  | fail claim stage code =>
    obtain ⟨r, hr, heq⟩ := map_eq_ok h
    cases heq
    obtain ⟨old, oldJob, row, job, events, hc⟩ := DeploymentDb.fail_ok hr
    exact .work rfl hc
  | retry claim availableAt stage code =>
    obtain ⟨r, hr, heq⟩ := map_eq_ok h
    cases heq
    obtain ⟨old, oldJob, row, job, events, hc⟩ := DeploymentDb.retry_ok hr
    exact .work rfl hc
  | recordDiagnostics claim report =>
    obtain ⟨r, hr, heq⟩ := map_eq_ok h
    cases heq
    obtain ⟨old, oldJob, row, job, events, hc⟩ := DeploymentDb.recordDiagnostics_ok hr (hrow _)
    exact .work rfl hc
  | recordReconciliationDiagnostics d report =>
    obtain ⟨r, hr, heq⟩ := map_eq_ok h
    cases heq
    obtain ⟨old, job, events, hc⟩ := DeploymentDb.recordReconciliationDiagnostics_ok hr (hjob d)
    exact .reconcile (.inl ⟨⟨report, rfl⟩, rfl⟩) hc
  | reconcileSucceeded d =>
    obtain ⟨r, hr, heq⟩ := map_eq_ok h
    cases heq
    rcases DeploymentDb.reconcileSucceeded_ok hr (hjob d) with
      heq | ⟨old, row, job, events, hstatus, hc⟩
    · exact .idle heq
    · exact .reconcile (.inr ⟨rfl, hstatus⟩) hc

/-- What a commit changes: nothing, or the rows of one deployment. -/
theorem Commits.update (hdb : db.Consistent) (h : Commits db db' eventId now call claim) :
    db' = db ∨ ∃ d row job events, db.Update db' eventId d row job events := by
  cases h with
  | idle h => exact .inl h
  | create hc => exact .inr ⟨_, _, _, _, hc.update⟩
  | claimNext hc => exact .inr ⟨_, _, _, _, hc.update hdb⟩
  | work _ hc => exact .inr ⟨_, _, _, _, hc.update hdb⟩
  | reconcile _ hc => exact .inr ⟨_, _, _, _, hc.update hdb⟩

theorem Commits.consistent (hdb : db.Consistent) (h : Commits db db' eventId now call claim) :
    db'.Consistent := by
  rcases h.update hdb with rfl | ⟨d, row, job, events, hu⟩
  · exact hdb
  · exact hdb.update hu

/-- A deployment that has ended changes only when its failure was in doubt and is reconciled. -/
theorem Commits.ended (h : Commits db db' eventId now call claim) {d : Uuid} {old : Deployment}
    (hold : db.deployments.lookup d = some old) (hended : old.status.isTerminal = true) :
    db'.deployments.lookup d = some old ∨ ∃ row, db'.deployments.lookup d = some row
      ∧ DeploymentDb.isUncertain old = true ∧ row.status = .succeeded
      ∧ call = .reconcileSucceeded d := by
  have key : ∀ q row job events, db.Writes db' q row job events →
      (q = d → row = old ∨ DeploymentDb.isUncertain old = true ∧ row.status = .succeeded
        ∧ call = .reconcileSucceeded d) →
      db'.deployments.lookup d = some old ∨ ∃ row, db'.deployments.lookup d = some row
        ∧ DeploymentDb.isUncertain old = true ∧ row.status = .succeeded
        ∧ call = .reconcileSucceeded d := by
    intro q row job events hw hrow
    rw [hw.deployments]
    split_ifs with hq
    · rcases hrow hq.symm with rfl | hrest
      · exact .inl rfl
      · exact .inr ⟨row, rfl, hrest⟩
    · exact .inl hold
  cases h with
  | idle h => exact .inl (h ▸ hold)
  | create hc =>
    refine key _ _ _ _ hc.writes fun hq ↦ ?_
    rw [← hq, hc.fresh] at hold
    cases hold
  | claimNext hc =>
    refine key _ _ _ _ hc.writes fun hq ↦ ?_
    obtain rfl := Option.some.inj (hc.found.symm.trans (hq ▸ hold))
    rw [hc.processing] at hended
    cases hended
  | work _ hc =>
    refine key _ _ _ _ hc.writes fun hq ↦ .inl ?_
    obtain rfl := Option.some.inj (hc.found.symm.trans (hq ▸ hold))
    exact hc.ended hended
  | reconcile hcall hc =>
    refine key _ _ _ _ hc.writes fun hq ↦ ?_
    obtain rfl := Option.some.inj (hc.found.symm.trans (hq ▸ hold))
    exact hcall.imp And.right fun ⟨hcall, hstatus⟩ ↦ ⟨hc.uncertain, hstatus, hq ▸ hcall⟩

/-- Where a deployment comes from: it was there before, with the same snapshot, or it is created. -/
theorem exec_origin (hdb : db.Consistent) (h : call.exec eventId now db = .ok (claim, db')) {d : Uuid}
    {row : Deployment} (hrow : db'.deployments.lookup d = some row) :
    (∃ old, db.deployments.lookup d = some old ∧ DeploymentDb.Frozen old row)
      ∨ ∃ request, call = .create d request ∧ row.projectId = request.projectId
        ∧ row.configVersion = request.configVersion
        ∧ row.configSnapshot = request.configSnapshot := by
  have key : ∀ q old new job events, db.deployments.lookup q = some old →
      db.Writes db' q new job events → DeploymentDb.Frozen old new →
      ∃ old, db.deployments.lookup d = some old ∧ DeploymentDb.Frozen old row := by
    intro q old new job events hold hw hfrozen
    rw [hw.deployments] at hrow
    split_ifs at hrow with hq
    · obtain rfl := Option.some.inj hrow
      exact ⟨old, hq ▸ hold, hfrozen⟩
    · exact ⟨row, hrow, .refl row⟩
  cases exec_ok hdb h with
  | idle hidle => exact .inl ⟨row, hidle ▸ hrow, .refl row⟩
  | @create id request new job hc =>
    obtain ⟨⟨r, view⟩, hr, heq⟩ := map_eq_ok h
    obtain rfl : view = db' := congrArg Prod.snd heq
    obtain ⟨-, -, hdeployments, hproject, hversion, hsnapshot⟩ := DeploymentDb.create_row hr
    rw [hdeployments, lookup_insert'] at hrow
    split_ifs at hrow with hd
    · obtain rfl := Option.some.inj hrow
      exact .inr ⟨request, by rw [hd], hproject, hversion, hsnapshot⟩
    · exact .inl ⟨row, hrow, .refl row⟩
  | claimNext hc => exact .inl (key _ _ _ _ _ hc.found hc.writes hc.frozen)
  | work _ hc => exact .inl (key _ _ _ _ _ hc.found hc.writes hc.frozen)
  | reconcile _ hc => exact .inl (key _ _ _ _ _ hc.found hc.writes hc.frozen)

end DeploymentCall

/-- The tables, the claims handed out so far, latest first, and the event sequence: its last number
and the numbers that open transactions have drawn for the deployment they hold locked. -/
structure DeploymentHistory where
  db : DeploymentDb
  issued : List DeploymentJobClaim
  sequence : ℕ
  draws : List (Uuid × ℕ)

namespace DeploymentHistory

/-- The latest claim on a deployment. -/
def latest (h : DeploymentHistory) (d : Uuid) : Option DeploymentJobClaim :=
  h.issued.find? fun claim ↦ claim.deployment.id = d

/-- The history after a call; a call that raises leaves no trace. -/
def after (h : DeploymentHistory) (call : DeploymentCall) (eventId : ℕ) (now : Time) :
    DeploymentHistory :=
  match call.exec eventId now h.db with
  | .ok (claim, db) =>
    { h with
      db := db
      issued := claim.toList ++ h.issued
      draws := h.draws.filter fun x ↦ x.2 ≠ eventId }
  | .error _ => h

/-- What a call can do: it draws no token twice, and the event it appends has the number its
transaction has drawn. -/
structure Admissible (h : DeploymentHistory) (call : DeploymentCall) (eventId : ℕ) (now : Time) :
    Prop where
  fresh : ∀ workerId duration token locked, call = .claimNext workerId duration token locked →
    ∀ claim ∈ h.issued, claim.token ≠ token
  drawn : ∀ claim db e, call.exec eventId now h.db = .ok (claim, db) →
    db.events = h.db.events ++ [e] → (e.deploymentId, e.id) ∈ h.draws

/-- One step: a transaction draws a number, gives up, or commits; or a project changes. -/
inductive Step : DeploymentHistory → DeploymentHistory → Prop
  | draw (h : DeploymentHistory) (d : Uuid) (hlock : ∀ x ∈ h.draws, x.1 ≠ d) :
    Step h { h with sequence := h.sequence + 1, draws := (d, h.sequence + 1) :: h.draws }
  | rollback (h : DeploymentHistory) (d : Uuid) :
    Step h { h with draws := h.draws.filter fun x ↦ x.1 ≠ d }
  | call (h : DeploymentHistory) (c : DeploymentCall) (eventId : ℕ) (now : Time)
    (hc : h.Admissible c eventId now) : Step h (h.after c eventId now)
  | project (h : DeploymentHistory) (projects : Uuid → Option ProjectStatus) :
    Step h { h with db := { h.db with projects := projects } }

/-- Before anything was requested. -/
structure Initial (h : DeploymentHistory) : Prop where
  deployments : h.db.deployments = ∅
  jobs : h.db.jobs = ∅
  events : h.db.events = []
  issued : h.issued = []
  draws : h.draws = []

def Reachable (h : DeploymentHistory) : Prop :=
  ∃ h₀, Initial h₀ ∧ Relation.ReflTransGen Step h₀ h

/-! ## The invariant -/

/-- What every reachable history satisfies. -/
structure Fenced (h : DeploymentHistory) : Prop where
  consistent : h.db.Consistent
  /-- No token was drawn twice. -/
  tokens : (h.issued.map DeploymentJobClaim.token).Nodup
  /-- A claimed job carries the token of the latest claim. -/
  fence : ∀ d job, h.db.jobs.lookup d = some job → job.state = .claimed →
    ∃ claim, h.latest d = some claim ∧ job.claimToken = some claim.token

namespace Fenced

variable {h h' : DeploymentHistory} {draws : List (Uuid × ℕ)} {db : DeploymentDb} {sequence : ℕ}

theorem initial (hi : Initial h) : Fenced h := by
  have hnone : ∀ d : Uuid, h.db.deployments.lookup d = none := by
    intro d
    rw [hi.deployments]
    rfl
  have hnoneJob : ∀ d : Uuid, h.db.jobs.lookup d = none := by
    intro d
    rw [hi.jobs]
    rfl
  constructor
  · constructor <;> simp [hnone, hnoneJob]
  · simp [hi.issued]
  · simp [hnoneJob]

/-- Writing the rows of one deployment keeps the fence if the job carries the latest token. -/
theorem fence_writes (hf : Fenced h) {d : Uuid} {row : Deployment} {job : DeploymentJobRow}
    {events : List DeploymentEvent} (hw : h.db.Writes db d row job events)
    (hjob : job.state = .claimed →
      ∃ claim, h.latest d = some claim ∧ job.claimToken = some claim.token) :
    ∀ q job, db.jobs.lookup q = some job → job.state = .claimed →
      ∃ claim, h.latest q = some claim ∧ job.claimToken = some claim.token := by
  intro q j hj hstate
  rw [hw.jobs] at hj
  split_ifs at hj with hq
  · cases hj
    exact hq ▸ hjob hstate
  · exact hf.fence q j hj hstate

theorem after (hf : Fenced h) {call : DeploymentCall} {eventId : ℕ} {now : Time}
    (hc : h.Admissible call eventId now) : Fenced (h.after call eventId now) := by
  unfold DeploymentHistory.after
  split
  · rename_i claim db hexec
    have hcommits := DeploymentCall.exec_ok hf.consistent hexec
    have hconsistent := hcommits.consistent hf.consistent
    cases hcommits with
    | idle heq =>
      subst heq
      exact ⟨hconsistent, hf.tokens, hf.fence⟩
    | create hcommit =>
      refine ⟨hconsistent, hf.tokens, hf.fence_writes hcommit.writes fun hclaimed ↦ ?_⟩
      rw [hcommit.state] at hclaimed
      cases hclaimed
    | @claimNext workerId duration token locked claim d old row job events hcommit =>
      obtain ⟨hdeployment, htoken, -⟩ := hcommit.claimed
      have hid : claim.deployment.id = d := by
        rw [hdeployment, hcommit.id]
        exact hf.consistent.ids d old hcommit.found
      refine ⟨hconsistent, ?_, fun q j hj hstate ↦ ?_⟩
      · simp only [Option.toList_some, List.cons_append, List.nil_append, List.map_cons,
          List.nodup_cons, List.mem_map, not_exists, not_and]
        exact ⟨fun claim' hmem ↦ htoken ▸ hc.fresh _ _ _ _ rfl claim' hmem, hf.tokens⟩
      · rw [hcommit.writes.jobs] at hj
        split_ifs at hj with hq
        · cases hj
          exact ⟨claim, by simp [latest, hid, hq], hcommit.jobToken.trans (by rw [htoken])⟩
        · obtain ⟨claim', hlatest, hrest⟩ := hf.fence q j hj hstate
          refine ⟨claim', ?_, hrest⟩
          simpa [latest, hid, Ne.symm hq] using hlatest
    | work _ hcommit =>
      refine ⟨hconsistent, hf.tokens, hf.fence_writes hcommit.writes fun hclaimed ↦ ?_⟩
      have hold := (DeploymentDb.holdsClaim_iff.mp hcommit.held).1
      obtain ⟨claim, hlatest, htoken⟩ := hf.fence _ _ hcommit.foundJob hold
      exact ⟨claim, hlatest, (hcommit.token hclaimed).trans htoken⟩
    | reconcile _ hcommit =>
      exact ⟨hconsistent, hf.tokens, hf.fence_writes hcommit.writes fun hclaimed ↦
        hf.fence _ _ hcommit.foundJob hclaimed⟩
  · exact hf

theorem step (hf : Fenced h) (hs : Step h h') : Fenced h' := by
  cases hs with
  | draw d _ => exact ⟨hf.consistent, hf.tokens, hf.fence⟩
  | rollback d => exact ⟨hf.consistent, hf.tokens, hf.fence⟩
  | call c eventId now hc => exact hf.after hc
  | project projects =>
    have hconsistent := hf.consistent
    exact ⟨⟨hconsistent.ids, hconsistent.exists_iff, hconsistent.agree, hconsistent.oneActive⟩,
      hf.tokens, hf.fence⟩

theorem steps (hf : Fenced h) (hs : Relation.ReflTransGen Step h h') : Fenced h' := by
  induction hs with
  | refl => exact hf
  | tail _ hstep ih => exact ih.step hstep

theorem reachable (hr : Reachable h) : Fenced h := by
  obtain ⟨h₀, hinit, hsteps⟩ := hr
  exact (initial hinit).steps hsteps

end Fenced

/-! ## Deployments that have ended -/

variable {h h' : DeploymentHistory} {d : Uuid} {row : Deployment}

theorem ended_step (hf : Fenced h) (hs : Step h h') (hrow : h.db.deployments.lookup d = some row)
    (hended : row.status.isTerminal = true) :
    h'.db.deployments.lookup d = some row ∨ ∃ row' eventId now,
      h'.db.deployments.lookup d = some row' ∧ DeploymentDb.isUncertain row = true
        ∧ row'.status = .succeeded ∧ h' = h.after (.reconcileSucceeded d) eventId now := by
  cases hs with
  | draw q _ => exact .inl hrow
  | rollback q => exact .inl hrow
  | call c eventId now hc =>
    cases hexec : c.exec eventId now h.db with
    | error x => exact .inl (by rw [DeploymentHistory.after, hexec]; exact hrow)
    | ok r =>
      rcases (DeploymentCall.exec_ok hf.consistent hexec).ended hrow hended with
        hsame | ⟨row', hrow', huncertain, hstatus, rfl⟩
      · exact .inl (by rw [DeploymentHistory.after, hexec]; exact hsame)
      · exact .inr ⟨row', eventId, now, by rw [DeploymentHistory.after, hexec]; exact hrow',
          huncertain, hstatus, rfl⟩
  | project projects => exact .inl hrow

/-- A deployment that has succeeded keeps its row. -/
theorem succeeded_steps (hf : Fenced h) (hs : Relation.ReflTransGen Step h h')
    (hrow : h.db.deployments.lookup d = some row) (hstatus : row.status = .succeeded) :
    h'.db.deployments.lookup d = some row := by
  induction hs with
  | refl => exact hrow
  | tail hsteps hstep ih =>
    refine (ended_step (hf.steps hsteps) hstep ih (by rw [hstatus]; rfl)).resolve_right ?_
    rintro ⟨row', -, -, -, huncertain, -⟩
    rw [(DeploymentDb.isUncertain_iff.mp huncertain).1] at hstatus
    cases hstatus

/-- **A deployment and its job agree.** In every reachable history each deployment has one job; the
job is done exactly when the deployment has succeeded or failed, which is when `terminalAt` is set,
and it is pending exactly when the deployment is queued; a project has at most one deployment under
way; a deployment that has succeeded stays as it is; and one that has failed changes only by a
reconciliation, to succeeded, when its failure was in doubt. -/
theorem reachable_jobs_agree (hr : Reachable h) :
    (∀ d, (∃ row, h.db.deployments.lookup d = some row) ↔ ∃ job, h.db.jobs.lookup d = some job)
    ∧ (∀ d row job, h.db.deployments.lookup d = some row → h.db.jobs.lookup d = some job →
      JobAgrees row job)
    ∧ (∀ d e a b, h.db.deployments.lookup d = some a → h.db.deployments.lookup e = some b →
      a.projectId = b.projectId → a.status.isTerminal = false → b.status.isTerminal = false → d = e)
    ∧ (∀ h' d row, Relation.ReflTransGen Step h h' → h.db.deployments.lookup d = some row →
      row.status = .succeeded → h'.db.deployments.lookup d = some row)
    ∧ ∀ h' d row row', Step h h' → h.db.deployments.lookup d = some row →
      h'.db.deployments.lookup d = some row' → row.status = .failed → row'.status ≠ .failed →
      row'.status = .succeeded ∧ row.failureStage = some "RECOVERY"
        ∧ row.failureCode = some "RECOVERY_STATE_UNCERTAIN"
        ∧ ∃ eventId now, h' = h.after (.reconcileSucceeded d) eventId now := by
  have hf := Fenced.reachable hr
  refine ⟨hf.consistent.exists_iff, hf.consistent.agree, hf.consistent.oneActive,
    fun h' d row hs hrow hstatus ↦ succeeded_steps hf hs hrow hstatus,
    fun h' d row row' hs hrow hrow' hfailed hleft ↦ ?_⟩
  rcases ended_step hf hs hrow (by rw [hfailed]; rfl) with
    hsame | ⟨row'', eventId, now, hrow'', huncertain, hstatus, heq⟩
  · obtain rfl := Option.some.inj (hsame.symm.trans hrow')
    exact absurd hfailed hleft
  · obtain rfl := Option.some.inj (hrow''.symm.trans hrow')
    obtain ⟨-, hstage, hcode⟩ := DeploymentDb.isUncertain_iff.mp huncertain
    exact ⟨hstatus, hstage, hcode, eventId, now, heq⟩

/-! ## Claims that no longer count -/

/-- A token of an earlier claim on the deployment. -/
def Superseded (h : DeploymentHistory) (d token : Uuid) : Prop :=
  ∃ claim ∈ h.issued, claim.deployment.id = d ∧ claim.token = token ∧ h.latest d ≠ some claim

/-- The lease in the job row has run out. -/
def Expired (h : DeploymentHistory) (d : Uuid) (now : Time) : Prop :=
  ∀ job lease, h.db.jobs.lookup d = some job → job.leaseExpiresAt = some lease → lease ≤ now

theorem Fenced.not_holds (hf : Fenced h) {claim : DeploymentJobClaim} {now : Time}
    (hlost : h.Superseded claim.deployment.id claim.token ∨ h.Expired claim.deployment.id now)
    {job : DeploymentJobRow} (hjob : h.db.jobs.lookup claim.deployment.id = some job) :
    DeploymentDb.holdsClaim job claim now = false := by
  by_contra hne
  have hheld : DeploymentDb.holdsClaim job claim now = true := by simpa using hne
  obtain ⟨hstate, -, htoken, lease, hlease, hlt⟩ := DeploymentDb.holdsClaim_iff.mp hheld
  rcases hlost with ⟨old, hmem, -, htokenOld, hnot⟩ | hexpired
  · obtain ⟨current, hlatest, htokenCurrent⟩ := hf.fence _ job hjob hstate
    have hsame : old.token = current.token :=
      htokenOld.trans (Option.some.inj (htoken.symm.trans htokenCurrent))
    obtain rfl : old = current :=
      List.inj_on_of_nodup_map hf.tokens hmem (List.mem_of_find?_eq_some hlatest) hsame
    exact hnot hlatest
  · exact absurd hlt (Nat.not_lt.mpr (hexpired job lease hjob hlease))

/-- A call that presents a lost claim raises: because of its own arguments, if they are refused, or
because the claim is lost. -/
theorem Fenced.exec_of_lost (hf : Fenced h) {call : DeploymentCall} {claim : DeploymentJobClaim}
    (hcall : call.claim? = some claim) {now : Time}
    (hlost : h.Superseded claim.deployment.id claim.token ∨ h.Expired claim.deployment.id now)
    (eventId : ℕ) : call.exec eventId now h.db
      = .error (if call.refused then .value else .deploymentClaimLost) := by
  have hlock : h.db.lockClaim claim now = .error .deploymentClaimLost := by
    unfold DeploymentDb.lockClaim
    cases hjob : h.db.jobs.lookup claim.deployment.id with
    | none => rfl
    | some job => simp [hf.not_holds hlost hjob]
  cases call with
  | renew claim duration =>
    cases hcall
    simp only [DeploymentCall.exec, DeploymentDb.renew, DeploymentCall.refused]
    split
    · rename_i job hjob
      simp [hf.not_holds hlost hjob, Except.map]
    · rfl
  | advance claim status code message =>
    cases hcall
    simp only [DeploymentCall.exec, DeploymentDb.advance, DeploymentCall.refused]
    split
    · simp_all [Except.map]
    · simp_all [Except.map, bind, Except.bind]
  | succeed claim =>
    cases hcall
    simp [DeploymentCall.exec, DeploymentDb.succeed, DeploymentCall.refused, hlock, bind,
      Except.bind, Except.map]
  | fail claim stage code =>
    cases hcall
    simp [DeploymentCall.exec, DeploymentDb.fail, DeploymentCall.refused, hlock, bind, Except.bind,
      Except.map]
  | retry claim availableAt stage code =>
    cases hcall
    simp [DeploymentCall.exec, DeploymentDb.retry, DeploymentCall.refused, hlock, bind, Except.bind,
      Except.map]
  | recordDiagnostics claim report =>
    cases hcall
    simp only [DeploymentCall.exec, DeploymentDb.recordDiagnostics, DeploymentCall.refused]
    split
    · simp_all [Except.map]
    · simp_all [Except.map, bind, Except.bind]
  | _ => simp [DeploymentCall.claim?] at hcall

/-- **Claims fence.** In every reachable history a call under a claim that presents the token of an
earlier claim on its deployment, or reads a clock at or past the end of the lease in the job row,
raises `DeploymentClaimLostError` (or, where the status given to `advance` or the retention given to
`record_diagnostics` is one it never accepts, the error about that argument) and leaves every table
as it was. -/
theorem reachable_claims_fence (hr : Reachable h) :
    ∀ call claim, DeploymentCall.claim? call = some claim → ∀ eventId now,
      h.Superseded claim.deployment.id claim.token ∨ h.Expired claim.deployment.id now →
      call.exec eventId now h.db = .error (if call.refused then .value else .deploymentClaimLost)
        ∧ h.after call eventId now = h := by
  intro call claim hcall eventId now hlost
  have hexec := (Fenced.reachable hr).exec_of_lost hcall hlost eventId
  refine ⟨hexec, ?_⟩
  rw [DeploymentHistory.after, hexec]

/-! ## A sample run -/

/-- Before anything was requested, with one project. -/
def sampleStart : DeploymentHistory := ⟨⟨fun _ ↦ some .ready, ∅, ∅, [], []⟩, [], 0, []⟩

/-- The history in which a transaction on a deployment has drawn the next number. -/
def drawn (h : DeploymentHistory) (d : Uuid) : DeploymentHistory :=
  { h with sequence := h.sequence + 1, draws := (d, h.sequence + 1) :: h.draws }

/-- A deployment has been requested at time 0. -/
def sampleCreated : DeploymentHistory :=
  sampleStart.after (.create (.ofNat 9) {
    projectId := .ofNat 1
    sourceType := .mainHead
    requestedCommitSha := none
    resolvedCommitSha := "0123456789012345678901234567890123456789"
    configVersion := 1
    configSnapshot := .null }) 0 0

/-- A worker has taken the job at time 1, with a lease until time 11. -/
def sampleClaimed : DeploymentHistory :=
  (sampleCreated.drawn (.ofNat 9)).after (.claimNext "worker" 10 (.ofNat 2) fun _ ↦ false) 1 1

/-- Another worker has taken it over at time 20, with a lease until time 30. -/
def sampleReclaimed : DeploymentHistory :=
  (sampleClaimed.drawn (.ofNat 9)).after (.claimNext "other" 10 (.ofNat 3) fun _ ↦ false) 2 20

/-- The claim of the first worker. -/
def sampleClaim : DeploymentJobClaim where
  deployment := {
    id := .ofNat 9
    projectId := .ofNat 1
    sourceType := .mainHead
    requestedCommitSha := none
    resolvedCommitSha := "0123456789012345678901234567890123456789"
    configVersion := 1
    configSnapshot := .null
    status := .preparing
    createdAt := 0
    updatedAt := 1 }
  token := .ofNat 2
  workerId := "worker"
  attempts := 1
  leaseExpiresAt := 11

/-- Which numbers a call uses can be read off the history after it. -/
theorem admissible_of_after {call : DeploymentCall} {eventId : ℕ} {now : Time}
    (hfresh : ∀ workerId duration token locked, call = .claimNext workerId duration token locked →
      ∀ claim ∈ h.issued, claim.token ≠ token)
    (hdrawn : ∀ e ∈ (h.after call eventId now).db.events.drop h.db.events.length,
      (e.deploymentId, e.id) ∈ h.draws) : h.Admissible call eventId now := by
  refine ⟨hfresh, fun claim db e hexec he ↦ hdrawn e ?_⟩
  simp [DeploymentHistory.after, hexec, he]

theorem reachable_sampleClaimed : Reachable sampleClaimed := by
  have hcreate : Step sampleStart sampleCreated := by
    refine .call _ _ _ _ (admissible_of_after ?_ ?_)
    · intro workerId duration token locked h
      cases h
    · intro e he
      cases he
  have hclaim : Step (sampleCreated.drawn (.ofNat 9)) sampleClaimed := by
    refine .call _ _ _ _ (admissible_of_after ?_ ?_)
    · intro workerId duration token locked h claim hmem
      cases hmem
    · intro e he
      obtain rfl := List.mem_singleton.mp he
      exact List.mem_singleton_self _
  have hdraw : Step sampleCreated (sampleCreated.drawn (.ofNat 9)) :=
    .draw _ _ fun x hx ↦ nomatch hx
  exact ⟨sampleStart, ⟨rfl, rfl, rfl, rfl, rfl⟩, .tail (.tail (.tail .refl hcreate) hdraw) hclaim⟩

theorem reachable_sampleReclaimed : Reachable sampleReclaimed := by
  obtain ⟨h₀, hinit, hsteps⟩ := reachable_sampleClaimed
  have hissued : sampleClaimed.issued = [sampleClaim] := rfl
  have hdraw : Step sampleClaimed (sampleClaimed.drawn (.ofNat 9)) :=
    .draw _ _ fun x hx ↦ nomatch hx
  have hclaim : Step (sampleClaimed.drawn (.ofNat 9)) sampleReclaimed := by
    refine .call _ _ _ _ (admissible_of_after ?_ ?_)
    · intro workerId duration token locked h claim hmem
      cases h
      rw [show (sampleClaimed.drawn (.ofNat 9)).issued = [sampleClaim] by rfl] at hmem
      obtain rfl := List.mem_singleton.mp hmem
      decide
    · intro e he
      obtain rfl := List.mem_singleton.mp he
      exact List.mem_singleton_self _
  exact ⟨h₀, hinit, (hsteps.tail hdraw).tail hclaim⟩

/-- The first worker's token has been superseded. -/
theorem superseded_sample :
    sampleReclaimed.Superseded sampleClaim.deployment.id sampleClaim.token := by
  refine ⟨sampleClaim, ?_, rfl, rfl, ?_⟩
  · exact .tail _ (.head _)
  · intro h
    exact absurd (congrArg (Option.map DeploymentJobClaim.token) h) (by decide)

/-- The first worker comes back too late. -/
theorem reachable_claims_fence_sample :
    (DeploymentCall.succeed sampleClaim).exec 3 21 sampleReclaimed.db = .error .deploymentClaimLost
      ∧ sampleReclaimed.after (.succeed sampleClaim) 3 21 = sampleReclaimed :=
  reachable_claims_fence reachable_sampleReclaimed (.succeed sampleClaim) sampleClaim rfl 3 21
    (.inl superseded_sample)

/-- The first worker asks for a status that `advance` never accepts, and that is what it is told. -/
theorem reachable_claims_fence_refused : ∃ h call claim eventId now, Reachable h
    ∧ DeploymentCall.claim? call = some claim
    ∧ h.Superseded claim.deployment.id claim.token
    ∧ call.exec eventId now h.db ≠ .error .deploymentClaimLost := by
  refine ⟨sampleReclaimed, .advance sampleClaim .queued "QUEUED" "", sampleClaim, 3, 21,
    reachable_sampleReclaimed, rfl, superseded_sample, ?_⟩
  intro h
  cases h

/-- The reclaimed deployment is under way and its job is claimed. -/
theorem reachable_jobs_agree_sample : ∃ row job,
    sampleReclaimed.db.deployments.lookup (.ofNat 9) = some row
      ∧ sampleReclaimed.db.jobs.lookup (.ofNat 9) = some job ∧ JobAgrees row job :=
  ⟨_, _, rfl, rfl, (reachable_jobs_agree reachable_sampleReclaimed).2.1 (.ofNat 9) _ _ rfl rfl⟩

end DeploymentHistory

end Heimdall
