import Heimdall.Errors
import Heimdall.PublicRoutes.Models

/-!
# The public-route repository

Each operation is one transaction: a function from the tables to an exception, which rolls
everything back, or to a result and the tables after the commit. All of them but `renew` and the
reads take one advisory lock first, so they run one after another; `renew` is a single statement on
a job row that every other writer locks.

## Clocks

`clock_timestamp()` is read anew by each statement. An operation is given its readings as a
sequence, and the `i`-th statement that looks at the clock uses the `i`-th one.
-/

namespace Heimdall

inductive ProjectStatus where
  | draft
  | ready
  | deleting
deriving DecidableEq

/-- The tables the public-route operations read and write. -/
structure RouteDb where
  /-- The status of each existing project. -/
  projects : Uuid → Option ProjectStatus
  /-- `project_public_routes`. -/
  routes : AList fun _ : Uuid ↦ RouteRow
  /-- `public_route_jobs`. -/
  jobs : AList fun _ : Uuid ↦ JobRow

namespace RouteDb

/-- `_route`. -/
def route (p : Uuid) (row : RouteRow) : PublicRoute := { row with projectId := p }

/-! ## Statements -/

/-- Another row already has the host name or the applied host name of `row`. -/
def uniqueViolated (db : RouteDb) (p : Uuid) (row : RouteRow) : Bool :=
  db.routes.entries.any fun e ↦ e.1 != p && (e.2.hostname == row.hostname
    || (row.appliedHostname.isSome && e.2.appliedHostname == row.appliedHostname))

/-- Write a route row, under the checks and the unique indexes of its table. -/
def putRoute (db : RouteDb) (p : Uuid) (row : RouteRow) : Except Exc RouteDb :=
  if !row.fits then .error .database
  else if !row.checks then .error .checkViolation
  else if db.uniqueViolated p row then .error .uniqueViolation
  else .ok { db with routes := db.routes.insert p row }

/-- `INSERT INTO project_public_routes`, which refers to an existing project. -/
def insertRoute (db : RouteDb) (p : Uuid) (row : RouteRow) : Except Exc RouteDb :=
  if (db.projects p).isNone then .error .database else db.putRoute p row

/-- Write a job row, under the checks of its table. -/
def putJob (db : RouteDb) (p : Uuid) (job : JobRow) : Except Exc RouteDb :=
  if !job.fits then .error .database
  else if !job.checks then .error .checkViolation
  else .ok { db with jobs := db.jobs.insert p job }

/-- `_upsert_job`. -/
def upsertJob (db : RouteDb) (p : Uuid) (revision : ℕ) (now : Time) : Except Exc RouteDb :=
  db.putJob p {
    desiredRevision := revision
    state := .pending
    availableAt := now
    createdAt := ((db.jobs.lookup p).map JobRow.createdAt).getD now
    updatedAt := now }

/-- `_lock_project_mutation`. -/
def lockProjectMutation (db : RouteDb) (p : Uuid) : Except Exc Unit :=
  if db.projects p = some .deleting then .error .publicRouteProjectDeleting else .ok ()

/-- `_assert_hostname_available`. -/
def assertHostnameAvailable (db : RouteDb) (p : Uuid) (hostname : String) : Except Exc Unit :=
  if db.routes.entries.any fun e ↦ e.1 != p
      && (e.2.hostname == hostname || e.2.appliedHostname == some hostname) then
    .error .publicRouteConflict
  else .ok ()

/-- The fence of a claim on a job row: same revision, owner and token, and a lease that is still
running. -/
def holdsClaim (job : JobRow) (claim : PublicRouteJobClaim) (now : Time) : Bool :=
  job.desiredRevision == claim.desiredRevision && job.state == .claimed
    && job.leaseOwner == some claim.workerId && job.claimToken == some claim.token
    && job.leaseExpiresAt.any (now < ·)

/-- `_lock_claim`. -/
def lockClaim (db : RouteDb) (claim : PublicRouteJobClaim) (now : Time) : Except Exc Unit :=
  match db.jobs.lookup claim.route.projectId, db.routes.lookup claim.route.projectId with
  | some job, some row =>
    if holdsClaim job claim now && row.desiredRevision == job.desiredRevision then .ok ()
    else .error .publicRouteClaimLost
  | _, _ => .error .publicRouteClaimLost

/-- `UPDATE project_public_routes … WHERE … AND EXISTS (…)`: the update of a route row that a
claim fences. -/
def updateFenced (db : RouteDb) (claim : PublicRouteJobClaim) (now : Time)
    (set : RouteRow → RouteRow) : Except Exc (PublicRoute × RouteDb) :=
  match db.jobs.lookup claim.route.projectId, db.routes.lookup claim.route.projectId with
  | some job, some row =>
    if row.desiredRevision == claim.desiredRevision && job.desiredRevision == row.desiredRevision
        && holdsClaim job claim now then do
      let db ← db.putRoute claim.route.projectId (set row)
      .ok (route claim.route.projectId (set row), db)
    else .error .publicRouteClaimLost
  | _, _ => .error .publicRouteClaimLost

/-- The update of the job row that a claim fences; a claim that does not hold is lost. -/
def updateJobFenced (db : RouteDb) (claim : PublicRouteJobClaim) (now : Time)
    (set : JobRow → JobRow) : Except Exc RouteDb :=
  match db.jobs.lookup claim.route.projectId with
  | some job =>
    if holdsClaim job claim now then db.putJob claim.route.projectId (set job)
    else .error .publicRouteClaimLost
  | none => .error .publicRouteClaimLost

/-- `_finish_job`. -/
def finishJob (db : RouteDb) (claim : PublicRouteJobClaim) (now : Time)
    (state : PublicRouteJobState) (code : Option String) : Except Exc RouteDb :=
  db.updateJobFenced claim now fun job ↦ { job with
    state := state
    leaseOwner := none
    leaseExpiresAt := none
    claimToken := none
    lastErrorCode := code
    updatedAt := now
    completedAt := some now }

/-! ## Requests -/

/-- `except UniqueViolation as error: raise PublicRouteConflictError`. -/
def asConflict {α : Type} : Except Exc α → Except Exc α
  | .error .uniqueViolation => .error .publicRouteConflict
  | r => r

def setEnabled (db : RouteDb) (p : Uuid) (subdomain hostname : String) (now : Time) :
    Except Exc (PublicRoute × RouteDb) := asConflict do
  db.lockProjectMutation p
  db.assertHostnameAvailable p hostname
  match db.routes.lookup p with
  | none =>
    let row : RouteRow := {
      subdomain := subdomain
      hostname := hostname
      desiredState := .enabled
      status := .pending
      desiredRevision := 1
      createdAt := now
      updatedAt := now }
    let db ← db.insertRoute p row
    let db ← db.upsertJob p 1 now
    .ok (route p row, db)
  | some current =>
    let unchanged := current.desiredState = .enabled ∧ current.hostname = hostname
    if unchanged ∧ current.status ∈ [.pending, .applying, .active] then
      .ok (route p current, db)
    else
      let revision :=
        if unchanged then current.desiredRevision else current.desiredRevision + 1
      let row := { current with
        subdomain := subdomain
        hostname := hostname
        desiredState := .enabled
        status := .pending
        desiredRevision := revision
        lastErrorCode := none
        updatedAt := now }
      let db ← db.putRoute p row
      let db ← db.upsertJob p revision now
      .ok (route p row, db)

/-- The common part of `disable` and `disable_for_deletion`, once the row is locked. -/
def disableRow (db : RouteDb) (p : Uuid) (current : RouteRow) (now : Time) :
    Except Exc (PublicRoute × RouteDb) :=
  let unchanged := current.desiredState = .disabled
  if unchanged ∧ current.status ∈ [.pending, .applying, .inactive] then .ok (route p current, db)
  else do
    let revision := if unchanged then current.desiredRevision else current.desiredRevision + 1
    let row := { current with
      desiredState := .disabled
      status := .pending
      desiredRevision := revision
      lastErrorCode := none
      updatedAt := now }
    let db ← db.putRoute p row
    let db ← db.upsertJob p revision now
    .ok (route p row, db)

def disable (db : RouteDb) (p : Uuid) (now : Time) : Except Exc (PublicRoute × RouteDb) := do
  db.lockProjectMutation p
  match db.routes.lookup p with
  | none => .error .publicRouteNotFound
  | some current => db.disableRow p current now

def disableForDeletion (db : RouteDb) (p : Uuid) (now : Time) :
    Except Exc (Option PublicRoute × RouteDb) :=
  if db.projects p ≠ some .deleting then .error .publicRouteProjectDeleting
  else match db.routes.lookup p with
    | none => .ok (none, db)
    | some current => do
      let (row, db) ← db.disableRow p current now
      .ok (some row, db)

/-! ## Reads -/

/-- The routes that are served, in the order of their rows. -/
def appliedRoutes (db : RouteDb) : List PublicRoute :=
  (db.routes.entries.filter fun e ↦ e.2.appliedHostname.isSome).map fun e ↦ route e.1 e.2

/-- `ORDER BY applied_hostname, project_id`. -/
def appliedBefore (a b : PublicRoute) : Bool :=
  match a.appliedHostname, b.appliedHostname with
  | some x, some y => x < y || (x == y && a.projectId.hex ≤ b.projectId.hex)
  | _, _ => true

def listApplied (db : RouteDb) : List PublicRoute :=
  db.appliedRoutes.insertionSort fun a b ↦ appliedBefore a b

/-! ## Claims -/

/-- A job that may be taken: due, or claimed with a lease that has run out. -/
def claimable (db : RouteDb) (now : Time) (p : Uuid) (job : JobRow) : Bool :=
  (db.routes.lookup p).any (·.desiredRevision == job.desiredRevision)
    && ((job.state == .pending && job.availableAt ≤ now)
      || (job.state == .claimed && job.leaseExpiresAt.any (· ≤ now)))

/-- `ORDER BY job.available_at, job.created_at, job.project_id`. -/
def jobBefore (a b : Uuid × JobRow) : Bool :=
  a.2.availableAt < b.2.availableAt || (a.2.availableAt == b.2.availableAt
    && (a.2.createdAt < b.2.createdAt || (a.2.createdAt == b.2.createdAt
      && a.1.hex ≤ b.1.hex)))

/-- The job `claim_next` takes: the first claimable one whose row is not locked by somebody
else. -/
def nextJob (db : RouteDb) (locked : Uuid → Bool) (now : Time) : Option (Uuid × JobRow) :=
  (((db.jobs.entries.filter fun e ↦ db.claimable now e.1 e.2 && !locked e.1).map fun e ↦
    (e.1, e.2)).insertionSort fun a b ↦ jobBefore a b).head?

/-- `claim_next`, with the fresh token it draws and the job rows it finds locked. -/
def claimNext (db : RouteDb) (workerId : String) (leaseDuration : Time) (token : Uuid)
    (locked : Uuid → Bool) (now : ℕ → Time) :
    Except Exc (Option PublicRouteJobClaim × RouteDb) :=
  match db.nextJob locked (now 0) with
  | none => .ok (none, db)
  | some (p, job) => do
    let job := { job with
      state := .claimed
      attempts := job.attempts + 1
      leaseOwner := some workerId
      leaseExpiresAt := some (now 1 + leaseDuration)
      claimToken := some token
      lastErrorCode := none
      updatedAt := now 1
      completedAt := none }
    let db ← db.putJob p job
    match db.routes.lookup p with
    | none => .error .publicRouteClaimLost
    | some row =>
      if row.desiredRevision == job.desiredRevision && job.leaseExpiresAt.any (now 2 < ·) then do
        let row := { row with
          status := .applying
          lastErrorCode := none
          updatedAt := now 2 }
        let db ← db.putRoute p row
        .ok (some {
          route := route p row
          token := token
          workerId := workerId
          desiredRevision := job.desiredRevision
          attempts := job.attempts
          leaseExpiresAt := now 1 + leaseDuration }, db)
      else .error .publicRouteClaimLost

def renew (db : RouteDb) (claim : PublicRouteJobClaim) (leaseDuration : Time) (now : ℕ → Time) :
    Except Exc (Time × RouteDb) :=
  match db.jobs.lookup claim.route.projectId with
  | none => .error .publicRouteClaimLost
  | some job =>
    if holdsClaim job claim (now 0)
        && (db.routes.lookup claim.route.projectId).any
          (·.desiredRevision == job.desiredRevision) then do
      let db ← db.putJob claim.route.projectId { job with
        leaseExpiresAt := some (now 1 + leaseDuration)
        updatedAt := now 1 }
      .ok (now 1 + leaseDuration, db)
    else .error .publicRouteClaimLost

/-- `wake_pending`: one statement on a job that waits for a gateway. -/
def wakePending (db : RouteDb) (p : Uuid) (now : ℕ → Time) : Except Exc RouteDb :=
  match db.jobs.lookup p, db.routes.lookup p with
  | some job, some row =>
    if job.state = .pending ∧ job.lastErrorCode = some "GATEWAY_START_FAILED"
        ∧ row.desiredState = .enabled ∧ row.status = .pending
        ∧ row.desiredRevision = job.desiredRevision
        ∧ row.lastErrorCode = some "GATEWAY_START_FAILED" then
      db.putJob p { job with availableAt := min job.availableAt (now 0), updatedAt := now 1 }
    else .ok db
  | _, _ => .ok db

def complete (db : RouteDb) (claim : PublicRouteJobClaim) (now : ℕ → Time) :
    Except Exc (PublicRoute × RouteDb) := do
  db.lockClaim claim (now 0)
  match db.routes.lookup claim.route.projectId with
  | none => .error .other
  | some current =>
    let status := if current.desiredState = .enabled then .active else .inactive
    let appliedHostname := if current.desiredState = .enabled then some current.hostname else none
    let (row, db) ← db.updateFenced claim (now 1) fun row ↦ { row with
      status := status
      appliedRevision := some row.desiredRevision
      appliedHostname := appliedHostname
      lastErrorCode := none
      updatedAt := now 1 }
    let db ← db.finishJob claim (now 2) .succeeded none
    .ok (row, db)

/-- `_reschedule`. -/
def reschedule (db : RouteDb) (claim : PublicRouteJobClaim) (availableAt : Time) (code : String)
    (now : ℕ → Time) : Except Exc (PublicRoute × RouteDb) := do
  db.lockClaim claim (now 0)
  let (row, db) ← db.updateFenced claim (now 1) fun row ↦ { row with
    status := .pending
    lastErrorCode := some code
    updatedAt := now 1 }
  let db ← db.updateJobFenced claim (now 2) fun job ↦ { job with
    state := .pending
    availableAt := availableAt
    leaseOwner := none
    leaseExpiresAt := none
    claimToken := none
    lastErrorCode := some code
    updatedAt := now 2
    completedAt := none }
  .ok (row, db)

def deferNotReady (db : RouteDb) (claim : PublicRouteJobClaim) (availableAt : Time)
    (code : String) (now : ℕ → Time) : Except Exc (PublicRoute × RouteDb) :=
  db.reschedule claim availableAt code now

def retry (db : RouteDb) (claim : PublicRouteJobClaim) (availableAt : Time) (code : String)
    (now : ℕ → Time) : Except Exc (PublicRoute × RouteDb) :=
  db.reschedule claim availableAt code now

def fail (db : RouteDb) (claim : PublicRouteJobClaim) (code : String) (uncertain : Bool)
    (now : ℕ → Time) : Except Exc (PublicRoute × RouteDb) := do
  db.lockClaim claim (now 0)
  let (row, db) ← db.updateFenced claim (now 1) fun row ↦ { row with
    status := if uncertain then .uncertain else .failed
    lastErrorCode := some code
    updatedAt := now 1 }
  let db ← db.finishJob claim (now 2) .failed (some code)
  .ok (row, db)

end RouteDb

end Heimdall
