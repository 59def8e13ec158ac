import Heimdall.Effect.Fallible
import Heimdall.Effect.Table
import Heimdall.PublicRoutes.Repository

/-!
# Fencing of the public-route jobs

Any number of callers run the repository operations in any order, with clock readings that may let
a lease run out at any moment. `History` keeps the tables together with the claims that have been
handed out, latest first; `Fenced` is what every reachable history satisfies.

## Requests are versions

A route row carries a request: a revision with what was asked for. An operation either leaves the
request alone or moves to a later revision, so along any run the revision determines the request
(`Precedes`). This is what makes a comparison of revisions enough to detect a changed request.

## Tokens are fences

A job row that is claimed carries the token of the latest claim on its project and the revision of
its route. The fence of an operation compares the two with its own claim, so an operation that
commits was given the latest claim, for the current request.
-/

namespace Heimdall

/-- What a row asks for, with the revision that names it. -/
structure RouteRequest where
  revision : ℕ
  desiredState : PublicRouteDesiredState
  hostname : String
deriving DecidableEq

namespace RouteRequest

/-- `b` is `a` or was made after it. -/
def Precedes (a b : RouteRequest) : Prop := a.revision < b.revision ∨ a = b

theorem Precedes.refl (a : RouteRequest) : a.Precedes a := .inr rfl

theorem Precedes.trans {a b c : RouteRequest} (hab : a.Precedes b) (hbc : b.Precedes c) :
    a.Precedes c := by
  rcases hab with hab | rfl
  · rcases hbc with hbc | rfl
    · exact .inl (Nat.lt_trans hab hbc)
    · exact .inl hab
  · exact hbc

theorem Precedes.eq {a b : RouteRequest} (h : a.Precedes b) (hrev : a.revision = b.revision) :
    a = b :=
  h.resolve_left (by omega)

theorem Precedes.le {a b : RouteRequest} (h : a.Precedes b) : a.revision ≤ b.revision := by
  rcases h with h | rfl
  · exact Nat.le_of_lt h
  · exact Nat.le_refl _

end RouteRequest

/-- The request of a row. -/
def RouteRow.request (row : RouteRow) : RouteRequest :=
  ⟨row.desiredRevision, row.desiredState, row.hostname⟩

/-- The host name a request wants to be served. -/
def RouteRow.requestedHostname (row : RouteRow) : Option String :=
  if row.desiredState = .enabled then some row.hostname else none

/-- The status of a route whose request has been applied. -/
def RouteRow.requestedStatus (row : RouteRow) : PublicRouteStatus :=
  if row.desiredState = .enabled then .active else .inactive

namespace RouteDb

/-! ## What a commit writes -/

/-- `db'` differs from `db` in the two rows of one project. -/
structure Writes (db db' : RouteDb) (p : Uuid) (row : RouteRow) (job : JobRow) : Prop where
  projects : db'.projects = db.projects
  routes : ∀ q, db'.routes.lookup q = if q = p then some row else db.routes.lookup q
  jobs : ∀ q, db'.jobs.lookup q = if q = p then some job else db.jobs.lookup q

theorem putRoute_ok {db db' : RouteDb} {p : Uuid} {row : RouteRow}
    (h : db.putRoute p row = .ok db') :
    row.checks = true ∧ db.uniqueViolated p row = false
      ∧ db' = { db with routes := db.routes.insert p row } := by
  unfold putRoute at h
  split at h
  · simp at h
  split at h
  · simp at h
  split at h
  · simp at h
  · exact ⟨by simpa using ‹¬(!row.checks) = true›, by simpa using ‹¬db.uniqueViolated p row = true›,
      by simpa using h.symm⟩

theorem putJob_ok {db db' : RouteDb} {p : Uuid} {job : JobRow} (h : db.putJob p job = .ok db') :
    job.checks = true ∧ db' = { db with jobs := db.jobs.insert p job } := by
  unfold putJob at h
  split at h
  · simp at h
  split at h
  · simp at h
  · exact ⟨by simpa using ‹¬(!job.checks) = true›, by simpa using h.symm⟩

/-- A route row and a job row written one after the other. -/
theorem writes_of_put {db : RouteDb} {p : Uuid} {row : RouteRow} {job : JobRow} :
    Writes db { db with routes := db.routes.insert p row, jobs := db.jobs.insert p job } p row
      job where
  projects := rfl
  routes := lookup_insert' _ p row
  jobs := lookup_insert' _ p job

theorem putRoute_upsertJob_ok {db db₁ db' : RouteDb} {p : Uuid} {row : RouteRow} {revision : ℕ}
    {now : Time} (hroute : db.putRoute p row = .ok db₁)
    (hjob : db₁.upsertJob p revision now = .ok db') :
    ∃ job : JobRow, job.desiredRevision = revision ∧ job.state = .pending
      ∧ Writes db db' p row job := by
  obtain ⟨-, -, rfl⟩ := putRoute_ok hroute
  obtain ⟨-, rfl⟩ := putJob_ok hjob
  exact ⟨_, rfl, rfl, writes_of_put⟩

/-- No other project's row names the host, as requested or as applied. -/
def HostnameFree (db : RouteDb) (p : Uuid) (hostname : String) : Prop :=
  ∀ q other, q ≠ p → db.routes.lookup q = some other →
    other.hostname ≠ hostname ∧ other.appliedHostname ≠ some hostname

theorem assertHostnameAvailable_ok {db : RouteDb} {p : Uuid} {hostname : String}
    (h : db.assertHostnameAvailable p hostname = .ok ()) : db.HostnameFree p hostname := by
  intro q other hq hother
  unfold assertHostnameAvailable at h
  split at h
  · simp at h
  · rename_i hany
    have hmem : (⟨q, other⟩ : Sigma fun _ : Uuid ↦ RouteRow) ∈ db.routes.entries :=
      AList.mem_lookup_iff.mp hother
    simp only [Bool.not_eq_true, List.any_eq_false] at hany
    simpa [hq] using hany _ hmem

/-- The commit of a request: nothing, or a later request that is waiting for a worker. Its host name
is the one the route had, or no other route names it. -/
def RequestCommit (db db' : RouteDb) (p : Uuid) : Prop :=
  db' = db ∨ ∃ (row : RouteRow) (job : JobRow), Writes db db' p row job
    ∧ job.desiredRevision = row.desiredRevision ∧ row.status = .pending ∧ job.state = .pending
    ∧ match db.routes.lookup p with
      | none => row.appliedHostname = none ∧ db.HostnameFree p row.hostname
      | some old => old.request.Precedes row.request
          ∧ row.appliedRevision = old.appliedRevision ∧ row.appliedHostname = old.appliedHostname
          ∧ (row.hostname = old.hostname ∨ db.HostnameFree p row.hostname)

theorem disableRow_ok {db db' : RouteDb} {p : Uuid} {current : RouteRow} {now : Time}
    {r : PublicRoute} (hcurrent : db.routes.lookup p = some current)
    (h : db.disableRow p current now = .ok (r, db')) : RequestCommit db db' p := by
  unfold disableRow at h
  simp only at h
  split at h
  · cases h
    exact .inl rfl
  · obtain ⟨db₁, hroute, h⟩ := bind_eq_ok h
    obtain ⟨db₂, hjob, h⟩ := bind_eq_ok h
    cases h
    obtain ⟨job, hrev, hstate, hw⟩ := putRoute_upsertJob_ok hroute hjob
    refine .inr ⟨_, job, hw, hrev, rfl, hstate, ?_⟩
    rw [hcurrent]
    refine ⟨?_, rfl, rfl, .inl rfl⟩
    by_cases hsame : current.desiredState = .disabled
    · right
      simp [RouteRow.request, hsame]
    · left
      simp [RouteRow.request, hsame]

theorem asConflict_ok {α : Type} {x : Except Exc α} {a : α} (h : asConflict x = .ok a) :
    x = .ok a := by
  unfold asConflict at h
  split at h
  · simp at h
  · exact h

theorem setEnabled_ok {db db' : RouteDb} {p : Uuid} {subdomain hostname : String} {now : Time}
    {r : PublicRoute} (h : db.setEnabled p subdomain hostname now = .ok (r, db')) :
    RequestCommit db db' p := by
  have h := asConflict_ok h
  obtain ⟨-, -, h⟩ := bind_eq_ok h
  obtain ⟨⟨⟩, hassert, h⟩ := bind_eq_ok h
  have hfree := assertHostnameAvailable_ok hassert
  split at h
  · rename_i hnone
    obtain ⟨db₁, hroute, h⟩ := bind_eq_ok h
    obtain ⟨db₂, hjob, h⟩ := bind_eq_ok h
    cases h
    unfold insertRoute at hroute
    split at hroute
    · simp at hroute
    · obtain ⟨job, hrev, hstate, hw⟩ := putRoute_upsertJob_ok hroute hjob
      refine .inr ⟨_, job, hw, hrev, rfl, hstate, ?_⟩
      rw [hnone]
      exact ⟨rfl, hfree⟩
  · rename_i current hcurrent
    simp only at h
    split at h
    · cases h
      exact .inl rfl
    · obtain ⟨db₁, hroute, h⟩ := bind_eq_ok h
      obtain ⟨db₂, hjob, h⟩ := bind_eq_ok h
      cases h
      obtain ⟨job, hrev, hstate, hw⟩ := putRoute_upsertJob_ok hroute hjob
      refine .inr ⟨_, job, hw, hrev, rfl, hstate, ?_⟩
      rw [hcurrent]
      refine ⟨?_, rfl, rfl, .inr hfree⟩
      by_cases hsame : current.desiredState = .enabled ∧ current.hostname = hostname
      · right
        simp [RouteRow.request, hsame]
      · left
        simp [RouteRow.request, hsame]

theorem disable_ok {db db' : RouteDb} {p : Uuid} {now : Time} {r : PublicRoute}
    (h : db.disable p now = .ok (r, db')) : RequestCommit db db' p := by
  obtain ⟨-, -, h⟩ := bind_eq_ok h
  split at h
  · simp at h
  · exact disableRow_ok ‹_› h

theorem disableForDeletion_ok {db db' : RouteDb} {p : Uuid} {now : Time} {r : Option PublicRoute}
    (h : db.disableForDeletion p now = .ok (r, db')) : RequestCommit db db' p := by
  unfold disableForDeletion at h
  split at h
  · simp at h
  · split at h
    · cases h
      exact .inl rfl
    · obtain ⟨⟨row, db₁⟩, hrow, h⟩ := bind_eq_ok h
      cases h
      exact disableRow_ok ‹_› hrow

/-! ## Fenced commits -/

theorem holdsClaim_iff {job : JobRow} {claim : PublicRouteJobClaim} {now : Time} :
    holdsClaim job claim now = true ↔ job.desiredRevision = claim.desiredRevision
      ∧ job.state = .claimed ∧ job.leaseOwner = some claim.workerId
      ∧ job.claimToken = some claim.token ∧ ∃ lease, job.leaseExpiresAt = some lease ∧ now < lease := by
  simp only [holdsClaim, Bool.and_eq_true, beq_iff_eq, Option.any_eq_true, decide_eq_true_eq,
    and_assoc]

theorem lockClaim_ok {db : RouteDb} {claim : PublicRouteJobClaim} {now : Time}
    (h : db.lockClaim claim now = .ok ()) :
    ∃ job row, db.jobs.lookup claim.route.projectId = some job
      ∧ db.routes.lookup claim.route.projectId = some row ∧ holdsClaim job claim now = true
      ∧ row.desiredRevision = claim.desiredRevision := by
  unfold lockClaim at h
  split at h
  · rename_i job row hjob hrow
    split at h
    · rename_i hc
      simp only [Bool.and_eq_true, beq_iff_eq] at hc
      exact ⟨job, row, hjob, hrow, hc.1, hc.2.trans (holdsClaim_iff.mp hc.1).1⟩
    · simp at h
  · simp at h

theorem updateFenced_ok {db db' : RouteDb} {claim : PublicRouteJobClaim} {now : Time}
    {set : RouteRow → RouteRow} {r : PublicRoute}
    (h : db.updateFenced claim now set = .ok (r, db')) :
    ∃ job row, db.jobs.lookup claim.route.projectId = some job
      ∧ db.routes.lookup claim.route.projectId = some row ∧ holdsClaim job claim now = true
      ∧ db.putRoute claim.route.projectId (set row) = .ok db' := by
  unfold updateFenced at h
  split at h
  · rename_i job row hjob hrow
    split at h
    · rename_i hc
      simp only [Bool.and_eq_true] at hc
      obtain ⟨db₁, hput, h⟩ := bind_eq_ok h
      cases h
      exact ⟨job, row, hjob, hrow, hc.2, hput⟩
    · simp at h
  · simp at h

theorem updateJobFenced_ok {db db' : RouteDb} {claim : PublicRouteJobClaim} {now : Time}
    {set : JobRow → JobRow} (h : db.updateJobFenced claim now set = .ok db') :
    ∃ job, db.jobs.lookup claim.route.projectId = some job ∧ holdsClaim job claim now = true
      ∧ db.putJob claim.route.projectId (set job) = .ok db' := by
  unfold updateJobFenced at h
  split at h
  · rename_i job hjob
    split at h
    · exact ⟨job, hjob, ‹_›, h⟩
    · simp at h
  · simp at h

/-- The commit of an operation under a claim: the claim held at each of its clock readings, and
the two rows of its project were rewritten. -/
structure ClaimCommit (db db' : RouteDb) (claim : PublicRouteJobClaim) (now : ℕ → Time)
    (setRoute : RouteRow → RouteRow) (setJob : JobRow → JobRow) : Prop where
  exists_rows : ∃ job row, db.jobs.lookup claim.route.projectId = some job
    ∧ db.routes.lookup claim.route.projectId = some row
    ∧ (∀ i < 3, holdsClaim job claim (now i) = true)
    ∧ row.desiredRevision = claim.desiredRevision
    ∧ Writes db db' claim.route.projectId (setRoute row) (setJob job)

/-- The three fenced statements every finishing operation consists of. -/
theorem claimCommit_of_statements {db db₁ db' : RouteDb} {claim : PublicRouteJobClaim}
    {now : ℕ → Time} {setRoute : RouteRow → RouteRow} {setJob : JobRow → JobRow} {r : PublicRoute}
    (hlock : db.lockClaim claim (now 0) = .ok ())
    (hroute : db.updateFenced claim (now 1) setRoute = .ok (r, db₁))
    (hjob : db₁.updateJobFenced claim (now 2) setJob = .ok db') :
    ClaimCommit db db' claim now setRoute setJob := by
  obtain ⟨job, row, hj, hr, h0, hrev⟩ := lockClaim_ok hlock
  obtain ⟨job₁, row₁, hj₁, hr₁, h1, hput⟩ := updateFenced_ok hroute
  obtain ⟨-, -, rfl⟩ := putRoute_ok hput
  obtain ⟨job₂, hj₂, h2, hput₂⟩ := updateJobFenced_ok hjob
  obtain ⟨-, rfl⟩ := putJob_ok hput₂
  obtain rfl : job = job₁ := Option.some.inj (hj.symm.trans hj₁)
  obtain rfl : row = row₁ := Option.some.inj (hr.symm.trans hr₁)
  obtain rfl : job = job₂ := Option.some.inj (hj.symm.trans hj₂)
  refine ⟨job, row, hj, hr, ?_, hrev, writes_of_put⟩
  intro i hi
  match i, hi with
  | 0, _ => exact h0
  | 1, _ => exact h1
  | 2, _ => exact h2

theorem complete_ok {db db' : RouteDb} {claim : PublicRouteJobClaim} {now : ℕ → Time}
    {r : PublicRoute} (h : db.complete claim now = .ok (r, db')) :
    ClaimCommit db db' claim now
      (fun row ↦ { row with
        status := row.requestedStatus
        appliedRevision := some row.desiredRevision
        appliedHostname := row.requestedHostname
        lastErrorCode := none
        updatedAt := now 1 })
      (fun job ↦ { job with
        state := .succeeded
        leaseOwner := none
        leaseExpiresAt := none
        claimToken := none
        lastErrorCode := none
        updatedAt := now 2
        completedAt := some (now 2) }) := by
  obtain ⟨⟨⟩, hlock, h⟩ := bind_eq_ok h
  split at h
  · simp at h
  · rename_i current hcurrent
    obtain ⟨⟨r₁, db₁⟩, hroute, h⟩ := bind_eq_ok h
    obtain ⟨db₂, hjob, h⟩ := bind_eq_ok h
    cases h
    obtain ⟨job, row, hj, hr, hheld, hrev, hw⟩ := (claimCommit_of_statements hlock hroute hjob).1
    obtain rfl : row = current := Option.some.inj (hr.symm.trans hcurrent)
    exact ⟨job, row, hj, hr, hheld, hrev, hw⟩

theorem reschedule_ok {db db' : RouteDb} {claim : PublicRouteJobClaim} {availableAt : Time}
    {code : String} {now : ℕ → Time} {r : PublicRoute}
    (h : db.reschedule claim availableAt code now = .ok (r, db')) :
    ClaimCommit db db' claim now
      (fun row ↦ { row with
        status := .pending
        lastErrorCode := some code
        updatedAt := now 1 })
      (fun job ↦ { job with
        state := .pending
        availableAt := availableAt
        leaseOwner := none
        leaseExpiresAt := none
        claimToken := none
        lastErrorCode := some code
        updatedAt := now 2
        completedAt := none }) := by
  obtain ⟨⟨⟩, hlock, h⟩ := bind_eq_ok h
  obtain ⟨⟨r₁, db₁⟩, hroute, h⟩ := bind_eq_ok h
  obtain ⟨db₂, hjob, h⟩ := bind_eq_ok h
  cases h
  exact claimCommit_of_statements hlock hroute hjob

theorem fail_ok {db db' : RouteDb} {claim : PublicRouteJobClaim} {code : String}
    {uncertain : Bool} {now : ℕ → Time} {r : PublicRoute}
    (h : db.fail claim code uncertain now = .ok (r, db')) :
    ClaimCommit db db' claim now
      (fun row ↦ { row with
        status := if uncertain then .uncertain else .failed
        lastErrorCode := some code
        updatedAt := now 1 })
      (fun job ↦ { job with
        state := .failed
        leaseOwner := none
        leaseExpiresAt := none
        claimToken := none
        lastErrorCode := some code
        updatedAt := now 2
        completedAt := some (now 2) }) := by
  obtain ⟨⟨⟩, hlock, h⟩ := bind_eq_ok h
  obtain ⟨⟨r₁, db₁⟩, hroute, h⟩ := bind_eq_ok h
  obtain ⟨db₂, hjob, h⟩ := bind_eq_ok h
  cases h
  exact claimCommit_of_statements hlock hroute hjob

/-- The commit of `claim_next`: no job, or a new lease on a due job of the current request. -/
def ClaimNextCommit (db db' : RouteDb) (workerId : String) (token : Uuid) (now : ℕ → Time) :
    Option PublicRouteJobClaim → Prop
  | none => db' = db
  | some claim => claim.token = token ∧ claim.workerId = workerId
      ∧ ∃ (old : RouteRow) (row : RouteRow) (job : JobRow),
        db.routes.lookup claim.route.projectId = some old
        ∧ row = { old with status := .applying, lastErrorCode := none, updatedAt := now 2 }
        ∧ claim.route = route claim.route.projectId row
        ∧ claim.desiredRevision = row.desiredRevision ∧ job.desiredRevision = row.desiredRevision
        ∧ job.state = .claimed ∧ job.leaseOwner = some workerId ∧ job.claimToken = some token
        ∧ job.leaseExpiresAt = some claim.leaseExpiresAt
        ∧ Writes db db' claim.route.projectId row job

theorem claimNext_ok {db db' : RouteDb} {workerId : String} {leaseDuration : Time} {token : Uuid}
    {locked : Uuid → Bool} {now : ℕ → Time} {r : Option PublicRouteJobClaim}
    (h : db.claimNext workerId leaseDuration token locked now = .ok (r, db')) :
    ClaimNextCommit db db' workerId token now r := by
  unfold claimNext at h
  split at h
  · cases h
    rfl
  · rename_i p job hnext
    obtain ⟨db₁, hput, h⟩ := bind_eq_ok h
    obtain ⟨-, rfl⟩ := putJob_ok hput
    split at h
    · simp at h
    · rename_i row hrow
      split at h
      · rename_i hcond
        simp only [Bool.and_eq_true, beq_iff_eq] at hcond
        obtain ⟨db₂, hroute, h⟩ := bind_eq_ok h
        obtain ⟨-, -, rfl⟩ := putRoute_ok hroute
        cases h
        refine ⟨rfl, rfl, row, _, _, hrow, rfl, rfl, hcond.1.symm, ?_, ?_, ?_, ?_, ?_,
          writes_of_put⟩
        · exact hcond.1.symm
        all_goals rfl
      · simp at h

theorem renew_ok {db db' : RouteDb} {claim : PublicRouteJobClaim} {leaseDuration : Time}
    {now : ℕ → Time} {t : Time} (h : db.renew claim leaseDuration now = .ok (t, db')) :
    ∃ job row, db.jobs.lookup claim.route.projectId = some job
      ∧ db.routes.lookup claim.route.projectId = some row ∧ holdsClaim job claim (now 0) = true
      ∧ row.desiredRevision = claim.desiredRevision ∧ db'.routes = db.routes
      ∧ Writes db db' claim.route.projectId row
          { job with leaseExpiresAt := some (now 1 + leaseDuration), updatedAt := now 1 } := by
  unfold renew at h
  split at h
  · simp at h
  · rename_i job hjob
    split at h
    · rename_i hcond
      simp only [Bool.and_eq_true, Option.any_eq_true, beq_iff_eq] at hcond
      obtain ⟨hheld, row, hrow, hrev⟩ := hcond
      obtain ⟨db₁, hput, h⟩ := bind_eq_ok h
      obtain ⟨-, rfl⟩ := putJob_ok hput
      cases h
      refine ⟨job, row, hjob, hrow, hheld, hrev.trans (holdsClaim_iff.mp hheld).1, rfl, rfl, ?_,
        lookup_insert' _ _ _⟩
      intro q
      split_ifs with hq
      · rw [hq, hrow]
      · rfl
    · simp at h

/-- The commit of `wake_pending`: nothing, or a pending job that is due earlier. -/
theorem wakePending_ok {db db' : RouteDb} {p : Uuid} {now : ℕ → Time}
    (h : db.wakePending p now = .ok db') :
    db' = db ∨ ∃ job row, db.jobs.lookup p = some job ∧ db.routes.lookup p = some row
      ∧ job.state = .pending ∧ job.desiredRevision = row.desiredRevision
      ∧ Writes db db' p row
          { job with availableAt := min job.availableAt (now 0), updatedAt := now 1 } := by
  unfold wakePending at h
  split at h
  · rename_i job row hjob hrow
    split at h
    · rename_i hcond
      obtain ⟨-, rfl⟩ := putJob_ok h
      refine .inr ⟨job, row, hjob, hrow, hcond.1, hcond.2.2.2.2.1.symm, rfl, fun q ↦ ?_,
        lookup_insert' _ _ _⟩
      split_ifs with hq
      · rw [hq, hrow]
      · rfl
    · exact .inl (Except.ok.inj h).symm
  · exact .inl (Except.ok.inj h).symm

end RouteDb

/-! ## Histories -/

/-- One call of a repository operation. -/
inductive RouteCall where
  | setEnabled (p : Uuid) (subdomain hostname : String) (now : Time)
  | disable (p : Uuid) (now : Time)
  | disableForDeletion (p : Uuid) (now : Time)
  | claimNext (workerId : String) (leaseDuration : Time) (token : Uuid) (locked : Uuid → Bool)
  | renew (claim : PublicRouteJobClaim) (leaseDuration : Time)
  | complete (claim : PublicRouteJobClaim)
  | retry (claim : PublicRouteJobClaim) (availableAt : Time) (code : String)
  | deferNotReady (claim : PublicRouteJobClaim) (availableAt : Time) (code : String)
  | fail (claim : PublicRouteJobClaim) (code : String) (uncertain : Bool)
  | wakePending (p : Uuid)

namespace RouteCall

/-- Run a call: the claim it hands out, if any, and the tables after its commit. -/
def exec (now : ℕ → Time) (db : RouteDb) :
    RouteCall → Except Exc (Option PublicRouteJobClaim × RouteDb)
  | .setEnabled p subdomain hostname at_ =>
    (db.setEnabled p subdomain hostname at_).map fun r ↦ (none, r.2)
  | .disable p at_ => (db.disable p at_).map fun r ↦ (none, r.2)
  | .disableForDeletion p at_ => (db.disableForDeletion p at_).map fun r ↦ (none, r.2)
  | .claimNext workerId leaseDuration token locked =>
    db.claimNext workerId leaseDuration token locked now
  | .renew claim leaseDuration => (db.renew claim leaseDuration now).map fun r ↦ (none, r.2)
  | .complete claim => (db.complete claim now).map fun r ↦ (none, r.2)
  | .retry claim availableAt code =>
    (db.retry claim availableAt code now).map fun r ↦ (none, r.2)
  | .deferNotReady claim availableAt code =>
    (db.deferNotReady claim availableAt code now).map fun r ↦ (none, r.2)
  | .fail claim code uncertain => (db.fail claim code uncertain now).map fun r ↦ (none, r.2)
  | .wakePending p => (db.wakePending p now).map fun r ↦ (none, r)

/-- The claim a call presents. -/
def claim? : RouteCall → Option PublicRouteJobClaim
  | .renew claim _ | .complete claim | .retry claim _ _ | .deferNotReady claim _ _
  | .fail claim _ _ => some claim
  | _ => none

/-- What a call that commits does to the tables: it records a request, hands out a claim, extends a
lease, wakes a job, or finishes a claim without touching the request. Only `complete` changes what is
applied, and then to what is requested. -/
inductive Commits (db db' : RouteDb) (now : ℕ → Time) :
    RouteCall → Option PublicRouteJobClaim → Prop
  | request {call : RouteCall} (p : Uuid) (hc : db.RequestCommit db' p) : Commits db db' now call none
  | claimNext {workerId : String} {d : Time} {token : Uuid} {locked : Uuid → Bool}
    {claim : Option PublicRouteJobClaim} (hc : db.ClaimNextCommit db' workerId token now claim) :
    Commits db db' now (.claimNext workerId d token locked) claim
  | renew {claim : PublicRouteJobClaim} {d t : Time} (hc : db.renew claim d now = .ok (t, db')) :
    Commits db db' now (.renew claim d) none
  | finish {call : RouteCall} {claim : PublicRouteJobClaim} {setRoute : RouteRow → RouteRow}
    {setJob : JobRow → JobRow} (hclaim : call.claim? = some claim)
    (hc : db.ClaimCommit db' claim now setRoute setJob)
    (hroute : ∀ row, (setRoute row).request = row.request)
    (hjob : ∀ job, (setJob job).desiredRevision = job.desiredRevision
      ∧ (setJob job).state ≠ .claimed)
    (hpaired : ∀ row job, (setJob job).state = (setRoute row).status.jobState)
    (happlied : ∀ row, (setRoute row).appliedHostname = row.appliedHostname
      ∨ call = .complete claim ∧ (setRoute row).appliedHostname = row.requestedHostname) :
    Commits db db' now call none
  | wake {p : Uuid} (hc : db.wakePending p now = .ok db') : Commits db db' now (.wakePending p) none

theorem exec_ok {db db' : RouteDb} {now : ℕ → Time} {call : RouteCall}
    {claim : Option PublicRouteJobClaim} (h : call.exec now db = .ok (claim, db')) :
    Commits db db' now call claim := by
  cases call with
  | claimNext workerId d token locked => exact .claimNext (RouteDb.claimNext_ok h)
  | setEnabled p subdomain hostname at_ =>
    obtain ⟨r, hr, heq⟩ := map_eq_ok h
    cases heq
    exact .request p (RouteDb.setEnabled_ok hr)
  | disable p at_ =>
    obtain ⟨r, hr, heq⟩ := map_eq_ok h
    cases heq
    exact .request p (RouteDb.disable_ok hr)
  | disableForDeletion p at_ =>
    obtain ⟨r, hr, heq⟩ := map_eq_ok h
    cases heq
    exact .request p (RouteDb.disableForDeletion_ok hr)
  | renew claim d =>
    obtain ⟨r, hr, heq⟩ := map_eq_ok h
    cases heq
    exact .renew hr
  | complete claim =>
    obtain ⟨r, hr, heq⟩ := map_eq_ok h
    cases heq
    refine .finish rfl (RouteDb.complete_ok hr) (fun _ ↦ rfl) (fun _ ↦ ⟨rfl, by simp⟩)
      (fun row _ ↦ ?_) fun _ ↦ .inr ⟨rfl, rfl⟩
    cases hstate : row.desiredState <;>
      simp [RouteRow.requestedStatus, PublicRouteStatus.jobState, hstate]
  | retry claim availableAt code =>
    obtain ⟨r, hr, heq⟩ := map_eq_ok h
    cases heq
    exact .finish rfl (RouteDb.reschedule_ok hr) (fun _ ↦ rfl) (fun _ ↦ ⟨rfl, by simp⟩)
      (fun _ _ ↦ rfl) fun _ ↦ .inl rfl
  | deferNotReady claim availableAt code =>
    obtain ⟨r, hr, heq⟩ := map_eq_ok h
    cases heq
    exact .finish rfl (RouteDb.reschedule_ok hr) (fun _ ↦ rfl) (fun _ ↦ ⟨rfl, by simp⟩)
      (fun _ _ ↦ rfl) fun _ ↦ .inl rfl
  | fail claim code uncertain =>
    obtain ⟨r, hr, heq⟩ := map_eq_ok h
    cases heq
    refine .finish rfl (RouteDb.fail_ok hr) (fun _ ↦ rfl) (fun _ ↦ ⟨rfl, by simp⟩)
      (fun _ _ ↦ ?_) fun _ ↦ .inl rfl
    cases uncertain <;> rfl
  | wakePending p =>
    obtain ⟨r, hr, heq⟩ := map_eq_ok h
    cases heq
    exact .wake hr

/-- No commit drops a row or goes back to an earlier request. -/
theorem Commits.request_precedes {db db' : RouteDb} {now : ℕ → Time} {call : RouteCall}
    {claim : Option PublicRouteJobClaim} (h : Commits db db' now call claim) {q : Uuid}
    {old : RouteRow} (hold : db.routes.lookup q = some old) :
    ∃ row, db'.routes.lookup q = some row ∧ old.request.Precedes row.request := by
  have key : ∀ p row job, db.Writes db' p row job →
      (∀ old, db.routes.lookup p = some old → old.request.Precedes row.request) →
      ∃ row, db'.routes.lookup q = some row ∧ old.request.Precedes row.request := by
    intro p row job hw hrow
    rw [hw.routes]
    split_ifs with hq
    · exact ⟨row, rfl, hrow old (hq ▸ hold)⟩
    · exact ⟨old, hold, .refl _⟩
  cases h with
  | request p hc =>
    rcases hc with rfl | ⟨row, job, hw, -, -, -, hprev⟩
    · exact ⟨old, hold, .refl _⟩
    · refine key p row job hw fun old' hold' ↦ ?_
      rw [hold'] at hprev
      exact hprev.1
  | claimNext hc =>
    cases claim with
    | none =>
      cases hc
      exact ⟨old, hold, .refl _⟩
    | some claim =>
      obtain ⟨-, -, old', row, job, hold', rfl, -, -, -, -, -, -, -, hw⟩ := hc
      refine key _ _ job hw fun old'' hold'' ↦ ?_
      obtain rfl : old' = old'' := Option.some.inj (hold'.symm.trans hold'')
      exact .refl _
  | renew hc =>
    obtain ⟨job, row, -, hr, -, -, -, hw⟩ := RouteDb.renew_ok hc
    refine key _ _ _ hw fun old' hold' ↦ ?_
    obtain rfl : row = old' := Option.some.inj (hr.symm.trans hold')
    exact .refl _
  | finish _ hc hroute _ =>
    obtain ⟨job, row, -, hr, -, -, hw⟩ := hc.exists_rows
    refine key _ _ _ hw fun old' hold' ↦ ?_
    obtain rfl : row = old' := Option.some.inj (hr.symm.trans hold')
    exact .inr (hroute row).symm
  | wake hc =>
    rcases RouteDb.wakePending_ok hc with rfl | ⟨job, row, -, hr, -, -, hw⟩
    · exact ⟨old, hold, .refl _⟩
    · refine key _ _ _ hw fun old' hold' ↦ ?_
      obtain rfl : row = old' := Option.some.inj (hr.symm.trans hold')
      exact .refl _

end RouteCall

/-- The tables, with every claim handed out so far, latest first. -/
structure RouteHistory where
  db : RouteDb
  issued : List PublicRouteJobClaim

namespace RouteHistory

/-- The latest claim on a project. -/
def latest (h : RouteHistory) (p : Uuid) : Option PublicRouteJobClaim :=
  h.issued.find? fun claim ↦ claim.route.projectId = p

/-- The history after a call; a call that raises leaves no trace. -/
def after (h : RouteHistory) (call : RouteCall) (now : ℕ → Time) : RouteHistory :=
  match call.exec now h.db with
  | .ok (claim, db) => ⟨db, claim.toList ++ h.issued⟩
  | .error _ => h

/-- What a caller can do: it presents claims it was given, and tokens are never drawn twice. -/
def Admissible (h : RouteHistory) (call : RouteCall) : Prop :=
  (∀ claim, call.claim? = some claim → claim ∈ h.issued)
    ∧ ∀ workerId leaseDuration token locked,
      call = .claimNext workerId leaseDuration token locked →
        ∀ claim ∈ h.issued, claim.token ≠ token

/-- One step: a call of any operation, or a project changing its status. -/
inductive Step : RouteHistory → RouteHistory → Prop
  | call (h : RouteHistory) (c : RouteCall) (now : ℕ → Time) (hc : h.Admissible c) :
    Step h (h.after c now)
  | project (h : RouteHistory) (projects : Uuid → Option ProjectStatus) :
    Step h ⟨{ h.db with projects := projects }, h.issued⟩

/-- Before anything was requested. -/
def Initial (h : RouteHistory) : Prop := h.db.routes = ∅ ∧ h.db.jobs = ∅ ∧ h.issued = []

def Reachable (h : RouteHistory) : Prop := ∃ h₀, Initial h₀ ∧ Relation.ReflTransGen Step h₀ h

/-! ## The invariant -/

/-- What every reachable history satisfies. -/
structure Fenced (h : RouteHistory) : Prop where
  /-- No token was drawn twice. -/
  tokens : (h.issued.map PublicRouteJobClaim.token).Nodup
  /-- A claim is for a request of its route, which may have been superseded since. -/
  claims : ∀ claim ∈ h.issued, claim.route.desiredRevision = claim.desiredRevision
    ∧ ∃ row, h.db.routes.lookup claim.route.projectId = some row
      ∧ claim.route.request.Precedes row.request
  /-- A job is for the current request of its route. -/
  revisions : ∀ p job, h.db.jobs.lookup p = some job → ∃ row, h.db.routes.lookup p = some row
    ∧ job.desiredRevision = row.desiredRevision
  /-- A claimed job carries the latest claim. -/
  fence : ∀ p job, h.db.jobs.lookup p = some job → job.state = .claimed → ∃ claim,
    h.latest p = some claim ∧ job.claimToken = some claim.token
      ∧ job.leaseOwner = some claim.workerId ∧ job.desiredRevision = claim.desiredRevision

namespace Fenced

variable {h : RouteHistory}

theorem initial (hi : Initial h) : Fenced h := by
  obtain ⟨hroutes, hjobs, hissued⟩ := hi
  constructor
  · simp [hissued]
  · simp [hissued]
  · intro p job hp
    rw [hjobs] at hp
    exact absurd hp (by simp)
  · intro p job hp
    rw [hjobs] at hp
    exact absurd hp (by simp)

theorem claims_writes (hf : Fenced h) {db' : RouteDb} {p : Uuid} {row : RouteRow} {job : JobRow}
    (hw : h.db.Writes db' p row job)
    (hrow : ∀ old, h.db.routes.lookup p = some old → old.request.Precedes row.request) :
    ∀ claim ∈ h.issued, claim.route.desiredRevision = claim.desiredRevision
      ∧ ∃ row, db'.routes.lookup claim.route.projectId = some row
        ∧ claim.route.request.Precedes row.request := by
  intro claim hclaim
  obtain ⟨heq, old, hold, hle⟩ := hf.claims claim hclaim
  refine ⟨heq, ?_⟩
  by_cases hp : claim.route.projectId = p
  · exact ⟨row, by rw [hw.routes, if_pos hp], hle.trans (hrow old (hp ▸ hold))⟩
  · exact ⟨old, by rw [hw.routes, if_neg hp, hold], hle⟩

theorem revisions_writes (hf : Fenced h) {db' : RouteDb} {p : Uuid} {row : RouteRow} {job : JobRow}
    (hw : h.db.Writes db' p row job) (hrev : job.desiredRevision = row.desiredRevision) :
    ∀ q job, db'.jobs.lookup q = some job → ∃ row, db'.routes.lookup q = some row
      ∧ job.desiredRevision = row.desiredRevision := by
  intro q job' hjob'
  rw [hw.jobs] at hjob'
  split_ifs at hjob' with hq
  · cases hjob'
    exact ⟨row, by rw [hw.routes, if_pos hq], hrev⟩
  · obtain ⟨row', hrow', hrev'⟩ := hf.revisions q job' hjob'
    exact ⟨row', by rw [hw.routes, if_neg hq, hrow'], hrev'⟩

/-- A commit that hands out no claim keeps the invariant when it keeps or advances the request and
leaves the job fenced. -/
theorem writes (hf : Fenced h) {db' : RouteDb} {p : Uuid} {row : RouteRow} {job : JobRow}
    (hw : h.db.Writes db' p row job)
    (hrow : ∀ old, h.db.routes.lookup p = some old → old.request.Precedes row.request)
    (hrev : job.desiredRevision = row.desiredRevision)
    (hfence : job.state = .claimed → ∃ claim, h.latest p = some claim
      ∧ job.claimToken = some claim.token ∧ job.leaseOwner = some claim.workerId
      ∧ job.desiredRevision = claim.desiredRevision) :
    Fenced ⟨db', h.issued⟩ where
  tokens := hf.tokens
  claims := hf.claims_writes hw hrow
  revisions := hf.revisions_writes hw hrev
  fence := by
    intro q job' hjob' hstate
    rw [hw.jobs] at hjob'
    split_ifs at hjob' with hq
    · cases hjob'
      exact hq ▸ hfence hstate
    · exact hf.fence q job' hjob' hstate

theorem request (hf : Fenced h) {db' : RouteDb} {p : Uuid} (hc : h.db.RequestCommit db' p) :
    Fenced ⟨db', h.issued⟩ := by
  rcases hc with rfl | ⟨row, job, hw, hrev, -, hstate, hold⟩
  · exact hf
  · refine hf.writes hw ?_ hrev fun hclaimed ↦ by simp [hstate] at hclaimed
    intro old hlookup
    rw [hlookup] at hold
    exact hold.1

theorem claim (hf : Fenced h) {db' : RouteDb} {claim : PublicRouteJobClaim} {now : ℕ → Time}
    {setRoute : RouteRow → RouteRow} {setJob : JobRow → JobRow}
    (hc : h.db.ClaimCommit db' claim now setRoute setJob)
    (hroute : ∀ row, (setRoute row).request = row.request)
    (hjob : ∀ job, (setJob job).desiredRevision = job.desiredRevision
      ∧ (setJob job).state ≠ .claimed) : Fenced ⟨db', h.issued⟩ := by
  obtain ⟨job, row, hj, hr, hheld, hrev, hw⟩ := hc.exists_rows
  have hjobRev := (RouteDb.holdsClaim_iff.mp (hheld 0 (by decide))).1
  refine hf.writes hw ?_ ?_ fun hclaimed ↦ absurd hclaimed (hjob job).2
  · intro old hold
    obtain rfl : row = old := Option.some.inj (hr.symm.trans hold)
    exact .inr (hroute row).symm
  · rw [(hjob job).1, hjobRev, ← hrev]
    exact (congrArg RouteRequest.revision (hroute row)).symm

theorem claimNext (hf : Fenced h) {db' : RouteDb} {workerId : String} {token : Uuid}
    {now : ℕ → Time} {r : Option PublicRouteJobClaim}
    (hc : h.db.ClaimNextCommit db' workerId token now r)
    (hfresh : ∀ claim ∈ h.issued, claim.token ≠ token) :
    Fenced ⟨db', r.toList ++ h.issued⟩ := by
  cases r with
  | none =>
    cases hc
    exact hf
  | some claim =>
    obtain ⟨rfl, rfl, old, row, job, hold, rfl, hroute, hrev, hjobRev, hstate, howner, htoken,
      hlease, hw⟩ := hc
    refine ⟨?_, ?_, hf.revisions_writes hw hjobRev, ?_⟩
    · simp only [Option.toList_some, List.cons_append, List.nil_append, List.map_cons,
        List.nodup_cons]
      refine ⟨?_, hf.tokens⟩
      simp only [List.mem_map, not_exists, not_and]
      exact hfresh
    · intro c hmem
      simp only [Option.toList_some, List.cons_append, List.nil_append, List.mem_cons] at hmem
      rcases hmem with rfl | hmem
      · refine ⟨by rw [hrev, hroute]; rfl, _, by rw [hw.routes, if_pos rfl], ?_⟩
        rw [hroute]
        exact .refl _
      · refine hf.claims_writes hw ?_ c hmem
        intro old' hold'
        obtain rfl : old = old' := Option.some.inj (hold.symm.trans hold')
        exact .refl _
    · intro q job' hjob' hstate'
      rw [hw.jobs] at hjob'
      split_ifs at hjob' with hq
      · cases hjob'
        refine ⟨claim, ?_, htoken, howner, hjobRev.trans hrev.symm⟩
        simp [latest, hq]
      · obtain ⟨claim', hlatest, hrest⟩ := hf.fence q job' hjob' hstate'
        refine ⟨claim', ?_, hrest⟩
        simpa [latest, Ne.symm hq] using hlatest

theorem renew (hf : Fenced h) {db' : RouteDb} {claim : PublicRouteJobClaim} {d t : Time}
    {now : ℕ → Time} (hc : h.db.renew claim d now = .ok (t, db')) : Fenced ⟨db', h.issued⟩ := by
  obtain ⟨job, row, hj, hr, hheld, hrev, -, hw⟩ := RouteDb.renew_ok hc
  have hjobRev := (RouteDb.holdsClaim_iff.mp hheld).1
  refine hf.writes hw ?_ (hjobRev.trans hrev.symm) fun hclaimed ↦ hf.fence _ job hj hclaimed
  intro old hold
  obtain rfl : row = old := Option.some.inj (hr.symm.trans hold)
  exact .refl _

theorem wake (hf : Fenced h) {db' : RouteDb} {p : Uuid} {now : ℕ → Time}
    (hc : h.db.wakePending p now = .ok db') : Fenced ⟨db', h.issued⟩ := by
  rcases RouteDb.wakePending_ok hc with rfl | ⟨job, row, -, hr, hstate, hrev, hw⟩
  · exact hf
  · refine hf.writes hw ?_ hrev fun hclaimed ↦ ?_
    · intro old hold
      obtain rfl : row = old := Option.some.inj (hr.symm.trans hold)
      exact .refl _
    · simp [hstate] at hclaimed

/-- No call breaks the invariant. -/
theorem after (hf : Fenced h) {call : RouteCall} (hc : h.Admissible call) (now : ℕ → Time) :
    Fenced (h.after call now) := by
  unfold RouteHistory.after
  split
  · rename_i claim db' hexec
    cases RouteCall.exec_ok hexec with
    | request p hcommit => exact hf.request hcommit
    | claimNext hcommit => exact hf.claimNext hcommit (hc.2 _ _ _ _ rfl)
    | renew hcommit => exact hf.renew hcommit
    | finish hclaim hcommit hroute hjob => exact hf.claim hcommit hroute hjob
    | wake hcommit => exact hf.wake hcommit
  · exact hf

theorem step {h' : RouteHistory} (hf : Fenced h) (hs : Step h h') : Fenced h' := by
  cases hs with
  | call c now hc => exact hf.after hc now
  | project projects => exact ⟨hf.tokens, hf.claims, hf.revisions, hf.fence⟩

theorem steps {h' : RouteHistory} (hf : Fenced h) (hs : Relation.ReflTransGen Step h h') :
    Fenced h' := by
  induction hs with
  | refl => exact hf
  | tail _ hstep ih => exact ih.step hstep

theorem reachable (hr : Reachable h) : Fenced h := by
  obtain ⟨h₀, hinit, hsteps⟩ := hr
  exact (initial hinit).steps hsteps

end Fenced

/-! ## Consequences -/

/-- A claim that no longer counts: another one was issued for its project, its request was
superseded, or the lease in the job row has run out. -/
def Stale (h : RouteHistory) (claim : PublicRouteJobClaim) (now : Time) : Prop :=
  h.latest claim.route.projectId ≠ some claim
    ∨ (∀ row, h.db.routes.lookup claim.route.projectId = some row →
        row.desiredRevision ≠ claim.desiredRevision)
    ∨ ∀ job lease, h.db.jobs.lookup claim.route.projectId = some job →
        job.leaseExpiresAt = some lease → lease ≤ now

theorem request_step {h h' : RouteHistory} (hs : Step h h') {p : Uuid} {row : RouteRow}
    (hrow : h.db.routes.lookup p = some row) :
    ∃ row', h'.db.routes.lookup p = some row' ∧ row.request.Precedes row'.request := by
  cases hs with
  | call c now hc =>
    unfold RouteHistory.after
    split
    · exact (RouteCall.exec_ok ‹_›).request_precedes hrow
    · exact ⟨row, hrow, .refl _⟩
  | project projects => exact ⟨row, hrow, .refl _⟩

/-- Along any run a route only moves to later requests. -/
theorem request_steps {h h' : RouteHistory} (hs : Relation.ReflTransGen Step h h') {p : Uuid}
    {row : RouteRow} (hrow : h.db.routes.lookup p = some row) :
    ∃ row', h'.db.routes.lookup p = some row' ∧ row.request.Precedes row'.request := by
  induction hs with
  | refl => exact ⟨row, hrow, .refl _⟩
  | tail _ hstep ih =>
    obtain ⟨row₁, hrow₁, hle₁⟩ := ih
    obtain ⟨row₂, hrow₂, hle₂⟩ := request_step hstep hrow₁
    exact ⟨row₂, hrow₂, hle₁.trans hle₂⟩

namespace Fenced

variable {h : RouteHistory}

/-- An operation that finds its claim on the job row was given the latest claim. -/
theorem latest_of_holds (hf : Fenced h) {claim : PublicRouteJobClaim} (hmem : claim ∈ h.issued)
    {job : JobRow} (hjob : h.db.jobs.lookup claim.route.projectId = some job) {now : Time}
    (hheld : RouteDb.holdsClaim job claim now = true) :
    h.latest claim.route.projectId = some claim := by
  obtain ⟨-, hstate, -, htoken, -⟩ := RouteDb.holdsClaim_iff.mp hheld
  obtain ⟨claim', hlatest, htoken', -⟩ := hf.fence _ job hjob hstate
  have hmem' : claim' ∈ h.issued := List.mem_of_find?_eq_some hlatest
  have htok : claim.token = claim'.token := Option.some.inj (htoken.symm.trans htoken')
  have heq : claim = claim' := List.inj_on_of_nodup_map hf.tokens hmem hmem' htok
  exact hlatest.trans (congrArg some heq.symm)

/-- The current row answers the claim's request while the revisions agree. -/
theorem request_eq (hf : Fenced h) {claim : PublicRouteJobClaim} (hmem : claim ∈ h.issued)
    {row : RouteRow} (hrow : h.db.routes.lookup claim.route.projectId = some row)
    (hrev : row.desiredRevision = claim.desiredRevision) : row.request = claim.route.request := by
  obtain ⟨heq, row', hrow', hle⟩ := hf.claims claim hmem
  obtain rfl : row = row' := Option.some.inj (hrow.symm.trans hrow')
  exact (hle.eq (heq.trans hrev.symm)).symm

/-- The first statement of every operation under a claim rejects a stale one. -/
theorem not_holds_of_stale (hf : Fenced h) {claim : PublicRouteJobClaim} (hmem : claim ∈ h.issued)
    {now : Time} (hstale : h.Stale claim now) {job : JobRow}
    (hjob : h.db.jobs.lookup claim.route.projectId = some job) :
    RouteDb.holdsClaim job claim now = false := by
  by_contra hne
  have hheld : RouteDb.holdsClaim job claim now = true := by simpa using hne
  obtain ⟨hrev, -, -, -, lease, hlease, hlt⟩ := RouteDb.holdsClaim_iff.mp hheld
  rcases hstale with hother | hsuperseded | hexpired
  · exact hother (hf.latest_of_holds hmem hjob hheld)
  · obtain ⟨row, hrow, hjobRev⟩ := hf.revisions _ job hjob
    exact hsuperseded row hrow (hjobRev.symm.trans hrev)
  · exact absurd hlt (Nat.not_lt.mpr (hexpired job lease hjob hlease))

theorem lockClaim_of_stale (hf : Fenced h) {claim : PublicRouteJobClaim} (hmem : claim ∈ h.issued)
    {now : Time} (hstale : h.Stale claim now) :
    h.db.lockClaim claim now = .error .publicRouteClaimLost := by
  unfold RouteDb.lockClaim
  split
  · rename_i job row hjob hrow
    simp [hf.not_holds_of_stale hmem hstale hjob]
  · rfl

theorem exec_of_stale (hf : Fenced h) {call : RouteCall} {claim : PublicRouteJobClaim}
    (hcall : call.claim? = some claim) (hmem : claim ∈ h.issued) {now : ℕ → Time}
    (hstale : h.Stale claim (now 0)) :
    call.exec now h.db = .error .publicRouteClaimLost := by
  have hlock := hf.lockClaim_of_stale hmem hstale
  cases call with
  | renew claim d =>
    cases hcall
    simp only [RouteCall.exec, RouteDb.renew]
    split
    · rfl
    · rename_i job hjob
      simp [hf.not_holds_of_stale hmem hstale hjob, Except.map]
  | complete claim =>
    cases hcall
    simp [RouteCall.exec, RouteDb.complete, hlock, bind, Except.bind, Except.map]
  | retry claim availableAt code =>
    cases hcall
    simp [RouteCall.exec, RouteDb.retry, RouteDb.reschedule, hlock, bind, Except.bind, Except.map]
  | deferNotReady claim availableAt code =>
    cases hcall
    simp [RouteCall.exec, RouteDb.deferNotReady, RouteDb.reschedule, hlock, bind, Except.bind,
      Except.map]
  | fail claim code uncertain =>
    cases hcall
    simp [RouteCall.exec, RouteDb.fail, hlock, bind, Except.bind, Except.map]
  | _ => simp [RouteCall.claim?] at hcall

end Fenced

/-- What a completed claim leaves behind: the latest claim of its project was presented while its
lease was running, and the route serves exactly what the claim asked for; nothing else changed. -/
structure Completed (h : RouteHistory) (claim : PublicRouteJobClaim) (now : ℕ → Time)
    (db' : RouteDb) : Prop where
  latest : h.latest claim.route.projectId = some claim
  unexpired : ∃ job lease, h.db.jobs.lookup claim.route.projectId = some job
    ∧ job.leaseExpiresAt = some lease ∧ ∀ i < 3, now i < lease
  current : ∃ row, h.db.routes.lookup claim.route.projectId = some row
    ∧ row.desiredRevision = claim.desiredRevision ∧ row.request = claim.route.request
  applied : ∃ row, db'.routes.lookup claim.route.projectId = some row
    ∧ row.request = claim.route.request
    ∧ row.status = claim.route.requestedStatus
    ∧ row.appliedRevision = some claim.desiredRevision
    ∧ row.appliedHostname = claim.route.requestedHostname
  others : ∀ q ≠ claim.route.projectId, db'.routes.lookup q = h.db.routes.lookup q
    ∧ db'.jobs.lookup q = h.db.jobs.lookup q

theorem Fenced.completed {h : RouteHistory} (hf : Fenced h) {claim : PublicRouteJobClaim}
    (hmem : claim ∈ h.issued) {now : ℕ → Time} {r : PublicRoute} {db' : RouteDb}
    (hc : h.db.complete claim now = .ok (r, db')) : h.Completed claim now db' := by
  obtain ⟨job, row, hj, hr, hheld, hrev, hw⟩ := (RouteDb.complete_ok hc).exists_rows
  obtain ⟨-, -, -, -, lease, hlease, -⟩ := RouteDb.holdsClaim_iff.mp (hheld 0 (by decide))
  have heq := hf.request_eq hmem hr hrev
  have hreq := heq
  simp only [RouteRow.request, RouteRequest.mk.injEq] at hreq
  refine ⟨hf.latest_of_holds hmem hj (hheld 0 (by decide)), ⟨job, lease, hj, hlease, ?_⟩,
    ⟨row, hr, hrev, heq⟩, ⟨_, by rw [hw.routes, if_pos rfl], ?_⟩, ?_⟩
  · intro i hi
    obtain ⟨-, -, -, -, lease', hlease', hlt⟩ := RouteDb.holdsClaim_iff.mp (hheld i hi)
    obtain rfl : lease = lease' := Option.some.inj (hlease.symm.trans hlease')
    exact hlt
  · refine ⟨heq, ?_, by simp [hrev], ?_⟩
    · simp [RouteRow.requestedStatus, hreq.2.1]
    · simp [RouteRow.requestedHostname, hreq.2.1, hreq.2.2]
  · intro q hq
    rw [hw.routes, hw.jobs, if_neg hq, if_neg hq]
    exact ⟨rfl, rfl⟩

/-- **No update is lost.** In every reachable history: the revision of a route determines what it
asks for, now and in every later history; an operation that completes a claim was given the latest
claim of its project while its lease was running, for the request that is still current, and makes
exactly that request the applied one; and a call that presents a stale claim raises and leaves
every row as it was. -/
theorem reachable_no_lost_update {h : RouteHistory} (hr : Reachable h) :
    (∀ h', Relation.ReflTransGen Step h h' → ∀ p row row',
      h.db.routes.lookup p = some row → h'.db.routes.lookup p = some row' →
      row.desiredRevision = row'.desiredRevision →
      row.desiredState = row'.desiredState ∧ row.hostname = row'.hostname)
    ∧ (∀ claim ∈ h.issued, ∀ now r db', h.db.complete claim now = .ok (r, db') →
      h.Completed claim now db')
    ∧ ∀ call claim, call.claim? = some claim → claim ∈ h.issued → ∀ now,
      h.Stale claim (now 0) →
      call.exec now h.db = .error .publicRouteClaimLost ∧ h.after call now = h := by
  have hf := Fenced.reachable hr
  refine ⟨?_, fun claim hmem now r db' hc ↦ hf.completed hmem hc, ?_⟩
  · intro h' hsteps p row row' hrow hrow' hrev
    obtain ⟨row'', hrow'', hle⟩ := request_steps hsteps hrow
    obtain rfl : row' = row'' := Option.some.inj (hrow'.symm.trans hrow'')
    have heq := hle.eq hrev
    simp only [RouteRow.request, RouteRequest.mk.injEq] at heq
    exact heq.2
  · intro call claim hcall hmem now hstale
    have hexec := hf.exec_of_stale hcall hmem hstale
    refine ⟨hexec, ?_⟩
    rw [RouteHistory.after, hexec]

/-- Before anything was requested, with one project. -/
def sampleStart : RouteHistory := ⟨⟨fun _ ↦ some .ready, ∅, ∅⟩, []⟩

/-- A route has been requested at time 0. -/
def sampleRequested : RouteHistory :=
  sampleStart.after (.setEnabled (.ofNat 1) "app" "app.example" 0) id

/-- A worker has taken the job at time 1, with a lease until time 12. -/
def sampleClaimed : RouteHistory :=
  sampleRequested.after (.claimNext "worker" 10 (.ofNat 2) fun _ ↦ false) fun i ↦ 1 + i

/-- The claim the worker was given. -/
def sampleClaim : PublicRouteJobClaim where
  route := {
    projectId := .ofNat 1
    subdomain := "app"
    hostname := "app.example"
    desiredState := .enabled
    status := .applying
    desiredRevision := 1
    createdAt := 0
    updatedAt := 3 }
  token := .ofNat 2
  workerId := "worker"
  desiredRevision := 1
  attempts := 1
  leaseExpiresAt := 12

theorem reachable_sampleClaimed : Reachable sampleClaimed := by
  have hrequest : Step sampleStart sampleRequested := by
    refine .call _ _ _ ⟨?_, ?_⟩
    · intro claim h
      cases h
    · intro workerId d token locked h
      cases h
  have hclaim : Step sampleRequested sampleClaimed := by
    refine .call _ _ _ ⟨?_, ?_⟩
    · intro claim h
      cases h
    · intro workerId d token locked h claim hmem
      exact absurd hmem (by rw [show sampleRequested.issued = [] by rfl]; simp)
  exact ⟨sampleStart, ⟨rfl, rfl, rfl⟩, .tail (.tail .refl hrequest) hclaim⟩

/-- The run of `sampleClaimed` completes its claim. -/
theorem reachable_no_lost_update_sample : sampleClaim ∈ sampleClaimed.issued ∧ ∃ r db',
    sampleClaimed.db.complete sampleClaim (fun i ↦ 5 + i) = .ok (r, db')
      ∧ sampleClaimed.Completed sampleClaim (fun i ↦ 5 + i) db' := by
  have hmem : sampleClaim ∈ sampleClaimed.issued := by
    rw [show sampleClaimed.issued = [sampleClaim] by rfl]
    exact List.mem_singleton_self _
  exact ⟨hmem, _, _, rfl,
    (reachable_no_lost_update reachable_sampleClaimed).2.1 sampleClaim hmem _ _ _ rfl⟩

end RouteHistory

end Heimdall
