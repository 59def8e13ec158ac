import Heimdall.PublicRoutes.Hostnames
import Heimdall.PublicRoutes.Service

/-!
# The two rows of a route

A route row and its job row are written by separate statements. Two things are kept all the same. The
rows agree: the job is for the request of the route, and its state is the one that goes with the
status of the route (`Paired`). And every row meets the constraints of its table, so that no statement
raises a check violation (`Checked`).

## Who may violate a check

A constraint speaks about one row. Every statement but the first one of `set_enabled` writes a row
made from one that is in the table; that first one writes the names it was given, and the service
gives only acceptable ones (`RouteCall.FromService`).
-/

namespace Heimdall

/-- A route row and its job row tell the same story. -/
structure RowsAgree (row : RouteRow) (job : JobRow) : Prop where
  revision : job.desiredRevision = row.desiredRevision
  pending : row.status = .pending ↔ job.state = .pending
  applying : row.status = .applying ↔ job.state = .claimed
  succeeded : row.status = .active ∨ row.status = .inactive ↔ job.state = .succeeded
  failed : row.status = .failed ∨ row.status = .uncertain ↔ job.state = .failed

theorem rowsAgree_iff {row : RouteRow} {job : JobRow} :
    RowsAgree row job ↔
      job.desiredRevision = row.desiredRevision ∧ job.state = row.status.jobState := by
  constructor
  · rintro ⟨hrevision, hpending, happlying, hsucceeded, hfailed⟩
    refine ⟨hrevision, ?_⟩
    cases hstatus : row.status <;> simp_all [PublicRouteStatus.jobState]
  · rintro ⟨hrevision, hstate⟩
    constructor
    · exact hrevision
    all_goals cases hstatus : row.status <;> simp [hstate, hstatus, PublicRouteStatus.jobState]

namespace RouteDb

/-- Each route has a job and each job a route, and the two agree. -/
structure Paired (db : RouteDb) : Prop where
  exists_iff : ∀ p, (∃ row, db.routes.lookup p = some row) ↔ ∃ job, db.jobs.lookup p = some job
  agree : ∀ p row job, db.routes.lookup p = some row → db.jobs.lookup p = some job →
    RowsAgree row job

/-- Every row meets the constraints of its table. -/
structure Checked (db : RouteDb) : Prop where
  routes : ∀ p row, db.routes.lookup p = some row → row.checks = true
  jobs : ∀ p job, db.jobs.lookup p = some job → job.checks = true

variable {db db' : RouteDb} {p : Uuid} {row : RouteRow} {job : JobRow}

/-! ## Rows that agree -/

theorem Paired.writes (hp : db.Paired) (hw : db.Writes db' p row job) (h : RowsAgree row job) :
    db'.Paired := by
  constructor
  · intro q
    rw [hw.routes, hw.jobs]
    split_ifs with hq
    · simp
    · exact hp.exists_iff q
  · intro q row' job' hrow hjob
    rw [hw.routes] at hrow
    rw [hw.jobs] at hjob
    split_ifs at hrow hjob with hq
    · cases hrow
      cases hjob
      exact h
    · exact hp.agree q row' job' hrow hjob

end RouteDb

/-- A commit leaves rows that agree. -/
theorem RouteCall.Commits.paired {db db' : RouteDb} {now : ℕ → Time} {call : RouteCall}
    {claim : Option PublicRouteJobClaim} (h : Commits db db' now call claim) (hp : db.Paired) :
    db'.Paired := by
  cases h with
  | request p hc =>
    rcases hc with rfl | ⟨row, job, hw, hrev, hstatus, hstate, -⟩
    · exact hp
    · exact hp.writes hw (rowsAgree_iff.mpr ⟨hrev, by rw [hstate, hstatus]; rfl⟩)
  | claimNext hc =>
    cases claim with
    | none => exact hc ▸ hp
    | some claim =>
      obtain ⟨-, -, old, row, job, -, rfl, -, -, hrev, hstate, -, -, -, hw⟩ := hc
      exact hp.writes hw (rowsAgree_iff.mpr ⟨hrev, hstate⟩)
  | renew hc =>
    obtain ⟨job, row, hj, hr, -, -, -, hw⟩ := RouteDb.renew_ok hc
    obtain ⟨hrev, hstate⟩ := rowsAgree_iff.mp (hp.agree _ row job hr hj)
    exact hp.writes hw (rowsAgree_iff.mpr ⟨hrev, hstate⟩)
  | finish _ hc hroute hjob hpaired _ =>
    obtain ⟨job, row, hj, hr, -, -, hw⟩ := hc.exists_rows
    have hrev := (hp.agree _ row job hr hj).revision
    refine hp.writes hw (rowsAgree_iff.mpr ⟨?_, hpaired row job⟩)
    rw [(hjob job).1, hrev]
    exact (congrArg RouteRequest.revision (hroute row)).symm
  | wake hc =>
    rcases RouteDb.wakePending_ok hc with rfl | ⟨job, row, hj, hr, -, -, hw⟩
    · exact hp
    · obtain ⟨hrev, hstate⟩ := rowsAgree_iff.mp (hp.agree _ row job hr hj)
      exact hp.writes hw (rowsAgree_iff.mpr ⟨hrev, hstate⟩)

namespace RouteDb

/-! ## Checks -/

/-- The transaction keeps every row within its checks, and if its arguments are sound no check is
what it fails with. -/
def Keeps (sound : Prop) {α : Type} (x : Except Exc α) (tables : α → RouteDb) : Prop :=
  Ensures x (fun a ↦ (tables a).Checked) fun e ↦ sound → e ≠ .checkViolation

variable {db db' : RouteDb} {p : Uuid} {row : RouteRow} {job : JobRow} {now : Time} {sound : Prop}

theorem putRoute_keeps (hc : db.Checked) (h : sound → row.checks = true) :
    Keeps sound (db.putRoute p row) id := by
  unfold putRoute Keeps
  split
  · simp
  split
  · rename_i hchecks
    simp only [ensures_error]
    intro hsound
    simp [h hsound] at hchecks
  split
  · simp
  · rename_i hchecks _
    refine ⟨fun q row' hrow' ↦ ?_, hc.jobs⟩
    rw [id_eq, lookup_insert'] at hrow'
    split_ifs at hrow' with hq
    · cases hrow'
      simpa using hchecks
    · exact hc.routes q row' hrow'

theorem putJob_keeps (hc : db.Checked) (h : sound → job.checks = true) :
    Keeps sound (db.putJob p job) id := by
  unfold putJob Keeps
  split
  · simp
  split
  · rename_i hchecks
    simp only [ensures_error]
    intro hsound
    simp [h hsound] at hchecks
  · rename_i hchecks
    refine ⟨hc.routes, fun q job' hjob' ↦ ?_⟩
    rw [id_eq, lookup_insert'] at hjob'
    split_ifs at hjob' with hq
    · cases hjob'
      simpa using hchecks
    · exact hc.jobs q job' hjob'

theorem upsertJob_keeps (hc : db.Checked) {revision : ℕ} (h : sound → 0 < revision) :
    Keeps sound (db.upsertJob p revision now) id := by
  refine putJob_keeps hc fun hsound ↦ ?_
  simp [JobRow.checks, h hsound]

/-- A row that meets its checks meets them with a new request, for which nothing is applied yet. -/
theorem checks_request {revision : ℕ} {subdomain hostname : String}
    {state : PublicRouteDesiredState} (h : row.checks = true) (hle : row.desiredRevision ≤ revision)
    (hsubdomain : isSubdomain subdomain = true)
    (hhostname : hostname.toList.map Char.toLower = hostname.toList) :
    ({ row with
        subdomain := subdomain
        hostname := hostname
        desiredState := state
        status := .pending
        desiredRevision := revision
        lastErrorCode := none
        updatedAt := now } : RouteRow).checks = true := by
  simp only [RouteRow.checks, isSubdomain, Bool.and_eq_true, decide_eq_true_eq,
    beq_iff_eq] at h hsubdomain ⊢
  obtain ⟨⟨⟨⟨⟨⟨⟨hpos, hle'⟩, -⟩, -⟩, -⟩, happlied⟩, -⟩, -⟩ := h
  have happliedRevision :
      row.appliedRevision.all (fun n ↦ decide (0 < n) && decide (n ≤ revision)) = true := by
    cases hrev : row.appliedRevision with
    | none => rfl
    | some n =>
      simp only [hrev, Option.all_some, Bool.and_eq_true, decide_eq_true_eq] at hle' ⊢
      exact ⟨hle'.1, hle'.2.trans hle⟩
  refine ⟨⟨⟨⟨⟨⟨⟨hpos.trans_le hle, happliedRevision⟩, hsubdomain.1⟩, hsubdomain.2⟩, hhostname.symm⟩, happlied⟩, ?_⟩, ?_⟩
  all_goals rfl

theorem checks_names (h : row.checks = true) :
    isSubdomain row.subdomain = true ∧ row.hostname.toList.map Char.toLower = row.hostname.toList := by
  simp only [RouteRow.checks, isSubdomain, Bool.and_eq_true, decide_eq_true_eq, beq_iff_eq] at h ⊢
  exact ⟨⟨h.1.1.1.1.1.2, h.1.1.1.1.2⟩, h.1.1.1.2.symm⟩

/-- Only the settled statuses are constrained. -/
theorem checks_status (h : row.checks = true) {status : PublicRouteStatus} {code : Option String}
    (hactive : status ≠ .active) (hinactive : status ≠ .inactive) :
    ({ row with status := status, lastErrorCode := code, updatedAt := now } : RouteRow).checks
      = true := by
  simp only [RouteRow.checks, Bool.and_eq_true] at h ⊢
  obtain ⟨⟨h, -⟩, -⟩ := h
  exact ⟨⟨h, by simp [hactive]⟩, by simp [hinactive]⟩

/-- A row whose request has been applied. -/
theorem checks_settled (h : row.checks = true) :
    ({ row with
        status := row.requestedStatus
        appliedRevision := some row.desiredRevision
        appliedHostname := row.requestedHostname
        lastErrorCode := none
        updatedAt := now } : RouteRow).checks = true := by
  simp only [RouteRow.checks, Bool.and_eq_true] at h ⊢
  obtain ⟨⟨⟨⟨⟨⟨⟨hpos, -⟩, hlabel⟩, hdashes⟩, hlower⟩, -⟩, -⟩, -⟩ := h
  refine ⟨⟨⟨⟨⟨⟨⟨hpos, ?_⟩, hlabel⟩, hdashes⟩, hlower⟩, ?_⟩, ?_⟩, ?_⟩
  · simpa using hpos
  · simp
  all_goals
    cases hstate : row.desiredState <;>
      simp [RouteRow.requestedStatus, RouteRow.requestedHostname, hstate]

/-! ## Operations -/

theorem disableRow_keeps (hc : db.Checked) (hrow : db.routes.lookup p = some row) :
    Keeps sound (db.disableRow p row now) Prod.snd := by
  have hchecks := hc.routes p row hrow
  have hpos : 0 < row.desiredRevision := by
    simp only [RouteRow.checks, Bool.and_eq_true, decide_eq_true_eq] at hchecks
    exact hchecks.1.1.1.1.1.1.1
  unfold disableRow
  simp only
  split
  · exact hc
  · obtain ⟨hsubdomain, hhostname⟩ := checks_names hchecks
    refine .bind (putRoute_keeps hc fun _ ↦
      checks_request hchecks ?_ hsubdomain hhostname) fun db₁ hc₁ ↦
      .bind (upsertJob_keeps hc₁ fun _ ↦ ?_) fun db₂ hc₂ ↦ hc₂
    all_goals
      split_ifs <;> omega

theorem lockProjectMutation_keeps :
    Ensures (db.lockProjectMutation p) (fun _ ↦ True) fun e ↦ sound → e ≠ .checkViolation := by
  unfold lockProjectMutation
  split <;> simp

theorem disable_keeps (hc : db.Checked) : Keeps sound (db.disable p now) Prod.snd := by
  refine .bind lockProjectMutation_keeps fun _ _ ↦ ?_
  split
  · simp [Ensures]
  · exact disableRow_keeps hc ‹_›

theorem disableForDeletion_keeps (hc : db.Checked) :
    Keeps sound (db.disableForDeletion p now) Prod.snd := by
  unfold disableForDeletion Keeps
  split
  · simp
  · split
    · exact hc
    · exact .bind (disableRow_keeps hc ‹_›) fun r hr ↦ hr

theorem asConflict_keeps {α : Type} {x : Except Exc α} {tables : α → RouteDb}
    (h : Keeps sound x tables) : Keeps sound (asConflict x) tables := by
  unfold asConflict
  split
  · simp [Keeps]
  · exact h

/-- The names `set_enabled` is given are the ones that can break a check. -/
theorem setEnabled_keeps (hc : db.Checked) {subdomain hostname : String} :
    Keeps (isSubdomain subdomain = true ∧ hostname.toList.map Char.toLower = hostname.toList)
      (db.setEnabled p subdomain hostname now) Prod.snd := by
  refine asConflict_keeps (.bind lockProjectMutation_keeps fun _ _ ↦ ?_)
  have hassert : Ensures (db.assertHostnameAvailable p hostname) (fun _ ↦ True) fun e ↦
      isSubdomain subdomain = true ∧ hostname.toList.map Char.toLower = hostname.toList →
        e ≠ .checkViolation := by
    unfold assertHostnameAvailable
    split <;> simp
  refine .bind hassert fun _ _ ↦ ?_
  split
  · refine .bind ?_ fun db₁ hc₁ ↦ .bind (upsertJob_keeps hc₁ fun _ ↦ Nat.one_pos) fun db₂ hc₂ ↦ hc₂
    unfold insertRoute
    split
    · simp
    · refine putRoute_keeps hc fun ⟨hsubdomain, hhostname⟩ ↦ ?_
      simpa [RouteRow.checks, isSubdomain, hhostname] using hsubdomain
  · rename_i current hcurrent
    have hchecks := hc.routes p current hcurrent
    have hpos : 0 < current.desiredRevision := by
      simp only [RouteRow.checks, Bool.and_eq_true, decide_eq_true_eq] at hchecks
      exact hchecks.1.1.1.1.1.1.1
    simp only
    split
    · exact hc
    · refine .bind (putRoute_keeps hc fun ⟨hsubdomain, hhostname⟩ ↦
        checks_request hchecks ?_ hsubdomain hhostname) fun db₁ hc₁ ↦
        .bind (upsertJob_keeps hc₁ fun _ ↦ ?_) fun db₂ hc₂ ↦ hc₂
      all_goals
        split_ifs <;> omega

theorem claimNext_keeps (hc : db.Checked) {workerId : String} {leaseDuration : Time} {token : Uuid}
    {locked : Uuid → Bool} {now : ℕ → Time} :
    Keeps sound (db.claimNext workerId leaseDuration token locked now) Prod.snd := by
  unfold claimNext Keeps
  split
  · exact hc
  · rename_i q job hnext
    have hjob := hc.jobs q job (lookup_of_first hnext).1
    simp only [JobRow.checks, Bool.and_eq_true, decide_eq_true_eq] at hjob
    refine .bind (putJob_keeps hc fun _ ↦ ?_) fun db₁ hc₁ ↦ ?_
    · simp [JobRow.checks, hjob.1.1]
    · split
      · simp
      · rename_i row hrow
        split
        · refine .bind (putRoute_keeps hc₁ fun _ ↦ ?_) fun db₂ hc₂ ↦ hc₂
          exact checks_status (hc₁.routes _ _ hrow) (by simp) (by simp)
        · simp

theorem holdsClaim_checks {claim : PublicRouteJobClaim} (h : job.checks = true)
    (hheld : holdsClaim job claim now = true) :
    0 < job.desiredRevision ∧ job.state = .claimed ∧ job.leaseOwner.isSome ∧ job.claimToken.isSome
      ∧ job.completedAt = none := by
  have hstate := (holdsClaim_iff.mp hheld).2.1
  simp only [JobRow.checks, hstate, Bool.and_eq_true, decide_eq_true_eq] at h
  obtain ⟨⟨hpos, hlease⟩, hcompleted⟩ := h
  simp only [if_pos, Bool.and_eq_true] at hlease
  exact ⟨hpos, hstate, hlease.1.1, hlease.2, by simpa using hcompleted⟩

theorem renew_keeps (hc : db.Checked) {claim : PublicRouteJobClaim} {leaseDuration : Time}
    {now : ℕ → Time} : Keeps sound (db.renew claim leaseDuration now) Prod.snd := by
  unfold renew Keeps
  split
  · simp
  · rename_i job hjob
    split
    · rename_i hheld
      rw [Bool.and_eq_true] at hheld
      obtain ⟨hpos, hstate, howner, htoken, hcompleted⟩ :=
        holdsClaim_checks (hc.jobs _ job hjob) hheld.1
      refine .bind (putJob_keeps hc fun _ ↦ ?_) fun db₁ hc₁ ↦ hc₁
      simp [JobRow.checks, hpos, hstate, howner, htoken, hcompleted]
    · simp

theorem wakePending_keeps (hc : db.Checked) {now : ℕ → Time} :
    Keeps sound (db.wakePending p now) id := by
  unfold wakePending
  split
  · rename_i job row hjob hrow
    split
    · exact putJob_keeps hc fun _ ↦ hc.jobs p job hjob
    · exact hc
  · exact hc

/-! ### Finishing a claim -/

theorem lockClaim_keeps {claim : PublicRouteJobClaim} :
    Ensures (db.lockClaim claim now) (fun _ ↦ True) fun e ↦ sound → e ≠ .checkViolation := by
  unfold lockClaim
  split
  · split <;> simp
  · simp

theorem updateFenced_keeps (hc : db.Checked) {claim : PublicRouteJobClaim}
    {set : RouteRow → RouteRow}
    (hset : ∀ row, db.routes.lookup claim.route.projectId = some row → row.checks = true →
      (set row).checks = true) : Keeps sound (db.updateFenced claim now set) Prod.snd := by
  unfold updateFenced Keeps
  split
  · rename_i job row hjob hrow
    split
    · exact .bind (putRoute_keeps hc fun _ ↦ hset row hrow (hc.routes _ row hrow)) fun db₁ hc₁ ↦ hc₁
    · simp
  · simp

theorem updateJobFenced_keeps (hc : db.Checked) {claim : PublicRouteJobClaim}
    {set : JobRow → JobRow}
    (hset : ∀ job, 0 < job.desiredRevision → (set job).checks = true) :
    Keeps sound (db.updateJobFenced claim now set) id := by
  unfold updateJobFenced Keeps
  split
  · rename_i job hjob
    split
    · exact putJob_keeps hc fun _ ↦ hset job (holdsClaim_checks (hc.jobs _ job hjob) ‹_›).1
    · simp
  · simp

theorem finishJob_keeps (hc : db.Checked) {claim : PublicRouteJobClaim} {code : Option String}
    {state : PublicRouteJobState} (hstate : state = .succeeded ∨ state = .failed) :
    Keeps sound (db.finishJob claim now state code) id := by
  refine updateJobFenced_keeps hc fun job hpos ↦ ?_
  rcases hstate with rfl | rfl <;> simp [JobRow.checks, hpos]

theorem complete_keeps (hc : db.Checked) {claim : PublicRouteJobClaim} {now : ℕ → Time} :
    Keeps sound (db.complete claim now) Prod.snd := by
  refine .bind lockClaim_keeps fun _ _ ↦ ?_
  split
  · simp
  · rename_i current hcurrent
    refine .bind (updateFenced_keeps hc fun row hrow hchecks ↦ ?_) fun r hc₁ ↦
      .bind (finishJob_keeps hc₁ (.inl rfl)) fun db₂ hc₂ ↦ hc₂
    obtain rfl : row = current := Option.some.inj (hrow.symm.trans hcurrent)
    exact checks_settled hchecks

theorem reschedule_keeps (hc : db.Checked) {claim : PublicRouteJobClaim} {availableAt : Time}
    {code : String} {now : ℕ → Time} :
    Keeps sound (db.reschedule claim availableAt code now) Prod.snd := by
  refine .bind lockClaim_keeps fun _ _ ↦
    .bind (updateFenced_keeps hc fun row _ hchecks ↦ checks_status hchecks (by simp) (by simp))
      fun r hc₁ ↦ .bind (updateJobFenced_keeps hc₁ fun job hpos ↦ ?_) fun db₂ hc₂ ↦ hc₂
  simp [JobRow.checks, hpos]

theorem fail_keeps (hc : db.Checked) {claim : PublicRouteJobClaim} {code : String}
    {uncertain : Bool} {now : ℕ → Time} : Keeps sound (db.fail claim code uncertain now) Prod.snd := by
  refine .bind lockClaim_keeps fun _ _ ↦ .bind (updateFenced_keeps hc fun row _ hchecks ↦
    checks_status hchecks ?_ ?_) fun r hc₁ ↦
      .bind (finishJob_keeps hc₁ (.inr rfl)) fun db₂ hc₂ ↦ hc₂
  all_goals
    split_ifs <;> simp

end RouteDb

namespace RouteCall

/-- The call is one the program makes: what it enables comes from a request the service accepted. -/
def FromService : RouteCall → Prop
  | .setEnabled _ subdomain hostname _ => ∃ (service : PublicRouteService)
      (request : PublicRouteUpdate), subdomain = request.subdomain
        ∧ service.hostname request = .ok hostname
  | _ => True

theorem exec_keeps {db : RouteDb} {now : ℕ → Time} (hc : db.Checked) (call : RouteCall) :
    RouteDb.Keeps call.FromService (call.exec now db) Prod.snd := by
  cases call with
  | setEnabled p subdomain hostname at_ =>
    refine .map (Ensures.mono (RouteDb.setEnabled_keeps hc) (fun _ h ↦ h)
      fun e he hservice ↦ he ?_) fun _ h ↦ h
    obtain ⟨service, request, rfl, hhostname⟩ := hservice
    exact ⟨request.isSubdomain, PublicRouteService.hostname_lower hhostname⟩
  | disable p at_ => exact .map (RouteDb.disable_keeps hc) fun _ h ↦ h
  | disableForDeletion p at_ => exact .map (RouteDb.disableForDeletion_keeps hc) fun _ h ↦ h
  | claimNext workerId d token locked => exact RouteDb.claimNext_keeps hc
  | renew claim d => exact .map (RouteDb.renew_keeps hc) fun _ h ↦ h
  | complete claim => exact .map (RouteDb.complete_keeps hc) fun _ h ↦ h
  | retry claim availableAt code => exact .map (RouteDb.reschedule_keeps hc) fun _ h ↦ h
  | deferNotReady claim availableAt code => exact .map (RouteDb.reschedule_keeps hc) fun _ h ↦ h
  | fail claim code uncertain => exact .map (RouteDb.fail_keeps hc) fun _ h ↦ h
  | wakePending p => exact .map (RouteDb.wakePending_keeps hc) fun _ h ↦ h

end RouteCall

namespace PublicRouteService

theorem asAppError_ne {α : Type} {x : Except Exc α} (h : x ≠ .error .checkViolation) :
    asAppError x ≠ .error .checkViolation := by
  unfold asAppError
  split
  · simp
  · simp
  · exact h

/-- A request through the service fails no check. -/
theorem set_ne_checkViolation {db : RouteDb} (hc : db.Checked) (service : PublicRouteService)
    (p : Uuid) (request : PublicRouteUpdate) (now : Time) :
    service.set db p request now ≠ .error .checkViolation := by
  have hproject : Ensures (getProject db p) (fun _ ↦ True) fun e ↦ e ≠ .checkViolation := by
    unfold getProject
    split <;> simp
  have hname : Ensures (service.hostname request)
      (fun hostname ↦ service.hostname request = .ok hostname) fun e ↦ e ≠ .checkViolation := by
    unfold PublicRouteService.hostname
    simp only
    split_ifs <;> simp
  have hset : Ensures (service.set db p request now) (fun _ ↦ True) fun e ↦ e ≠ .checkViolation := by
    refine hproject.bind fun _ _ ↦ hname.bind fun hostname hhostname ↦ ?_
    have hrepository : db.setEnabled p request.subdomain hostname now ≠ .error .checkViolation :=
      fun h ↦ (RouteDb.setEnabled_keeps hc).of_error h
        ⟨request.isSubdomain, hostname_lower hhostname⟩ rfl
    cases hx : asAppError (db.setEnabled p request.subdomain hostname now) with
    | ok r => trivial
    | error e => exact fun he ↦ asAppError_ne hrepository (he ▸ hx)
  exact fun h ↦ hset.of_error h rfl

end PublicRouteService

namespace RouteHistory

variable {h h' : RouteHistory}

theorem rows_step (hs : Step h h') (hp : h.db.Paired) (hc : h.db.Checked) :
    h'.db.Paired ∧ h'.db.Checked := by
  cases hs with
  | call c now _ =>
    unfold RouteHistory.after
    split
    · rename_i claim db' hexec
      exact ⟨(RouteCall.exec_ok hexec).paired hp, (RouteCall.exec_keeps hc c).of_ok hexec⟩
    · exact ⟨hp, hc⟩
  | project projects => exact ⟨⟨hp.exists_iff, hp.agree⟩, ⟨hc.routes, hc.jobs⟩⟩

theorem Reachable.rows (hr : Reachable h) : h.db.Paired ∧ h.db.Checked := by
  obtain ⟨h₀, ⟨hroutes, hjobs, -⟩, hsteps⟩ := hr
  induction hsteps with
  | refl =>
    refine ⟨⟨fun p ↦ ?_, fun p row job hrow ↦ ?_⟩, ⟨fun p row hrow ↦ ?_, fun p job hjob ↦ ?_⟩⟩
    · simp [hroutes, hjobs]
    · simp [hroutes] at hrow
    · simp [hroutes] at hrow
    · simp [hjobs] at hjob
  | tail _ hstep ih => exact rows_step hstep ih.1 ih.2

/-- **The two rows of a route agree.** In every reachable history each route has exactly one job and
the reverse; the job is for the revision the route asks for and its state goes with the status of the
route; what is applied is never ahead of what is asked for; every row meets the constraints of its
table; and no call the program makes fails with a check violation. -/
theorem reachable_rows_agree (hr : Reachable h) :
    (∀ p, (∃ row, h.db.routes.lookup p = some row) ↔ ∃ job, h.db.jobs.lookup p = some job)
    ∧ (∀ p row job, h.db.routes.lookup p = some row → h.db.jobs.lookup p = some job →
      RowsAgree row job)
    ∧ (∀ p row applied, h.db.routes.lookup p = some row → row.appliedRevision = some applied →
      applied ≤ row.desiredRevision)
    ∧ (∀ p row, h.db.routes.lookup p = some row → row.checks = true)
    ∧ (∀ p job, h.db.jobs.lookup p = some job → job.checks = true)
    ∧ (∀ call now, RouteCall.FromService call → call.exec now h.db ≠ .error .checkViolation)
    ∧ ∀ (service : PublicRouteService) p request now,
      service.set h.db p request now ≠ .error .checkViolation := by
  obtain ⟨hp, hc⟩ := hr.rows
  refine ⟨hp.exists_iff, hp.agree, fun p row applied hrow happlied ↦ ?_, hc.routes, hc.jobs,
    fun call now hservice hexec ↦ ?_, fun service p request now ↦
      service.set_ne_checkViolation hc p request now⟩
  · have hchecks := hc.routes p row hrow
    simp only [RouteRow.checks, happlied, Option.all_some, Bool.and_eq_true,
      decide_eq_true_eq] at hchecks
    exact hchecks.1.1.1.1.1.1.2.2
  · exact (RouteCall.exec_keeps hc call).of_error hexec hservice rfl

/-- The route of the sample is served and its job has succeeded. -/
theorem reachable_rows_agree_sample : ∃ row job,
    sampleServed.db.routes.lookup (.ofNat 1) = some row
      ∧ sampleServed.db.jobs.lookup (.ofNat 1) = some job ∧ row.status = .active
      ∧ job.state = .succeeded := by
  have hrows := (reachable_rows_agree reachable_sampleServed).2.1 (.ofNat 1) _ _ rfl rfl
  exact ⟨_, _, rfl, rfl, rfl, hrows.succeeded.mp (.inl rfl)⟩

end RouteHistory

end Heimdall
