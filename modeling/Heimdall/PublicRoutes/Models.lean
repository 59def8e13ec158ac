import Heimdall.Text.Names
import Heimdall.Text.Uuid

/-!
# Public routes

One route row and one job row for each project. The row carries what was requested last
(`desiredState`, `hostname`, `desiredRevision`) next to what the edge serves (`appliedHostname`,
`appliedRevision`); the job row carries the lease of the worker that is bringing the second to the
first.

The nullable columns stay nullable here and the table checks are separate predicates, as in the
migration: which combinations occur is something to prove about the operations.
-/

namespace Heimdall

/-- Points in time and durations, in the resolution of the clock. -/
abbrev Time := ℕ

inductive PublicRouteDesiredState where
  | enabled
  | disabled
deriving DecidableEq

inductive PublicRouteStatus where
  | pending
  | applying
  | active
  | inactive
  | failed
  | uncertain
deriving DecidableEq

inductive PublicRouteJobState where
  | pending
  | claimed
  | succeeded
  | failed
deriving DecidableEq

/-- The state of the job of a route with this status. -/
def PublicRouteStatus.jobState : PublicRouteStatus → PublicRouteJobState
  | .pending => .pending
  | .applying => .claimed
  | .active | .inactive => .succeeded
  | .failed | .uncertain => .failed

/-- A row of `project_public_routes` apart from its key. -/
structure RouteRow where
  subdomain : String
  hostname : String
  desiredState : PublicRouteDesiredState
  status : PublicRouteStatus
  desiredRevision : ℕ
  appliedRevision : Option ℕ := none
  appliedHostname : Option String := none
  lastErrorCode : Option String := none
  createdAt : Time
  updatedAt : Time
deriving DecidableEq

/-- A route as the program passes it around: a row with its key. -/
structure PublicRoute extends RouteRow where
  projectId : Uuid
deriving DecidableEq

/-- A row of `public_route_jobs` apart from its key. -/
structure JobRow where
  desiredRevision : ℕ
  state : PublicRouteJobState
  attempts : ℕ := 0
  availableAt : Time
  leaseOwner : Option String := none
  leaseExpiresAt : Option Time := none
  claimToken : Option Uuid := none
  lastErrorCode : Option String := none
  createdAt : Time
  updatedAt : Time
  completedAt : Option Time := none
deriving DecidableEq

/-- What a worker is given when it takes a job. -/
structure PublicRouteJobClaim where
  route : PublicRoute
  token : Uuid
  workerId : String
  desiredRevision : ℕ
  attempts : ℕ
  leaseExpiresAt : Time
deriving DecidableEq

/-! ## Table checks -/

/-- The column types of `project_public_routes`. Revisions are `bigint`. -/
def RouteRow.fits (r : RouteRow) : Bool :=
  r.subdomain.length ≤ 63 && r.hostname.length ≤ 253 && r.desiredRevision < 2 ^ 63
    && r.appliedRevision.all (· < 2 ^ 63) && r.appliedHostname.all (·.length ≤ 253)
    && r.lastErrorCode.all (·.length ≤ 64)

/-- The `CHECK` constraints of `project_public_routes`. -/
def RouteRow.checks (r : RouteRow) : Bool :=
  0 < r.desiredRevision && r.appliedRevision.all (fun n ↦ 0 < n && n ≤ r.desiredRevision)
    && isLabel r.subdomain.toList && !decide ("--".toList <:+: r.subdomain.toList)
    && r.hostname.toList == r.hostname.toList.map Char.toLower
    && (r.appliedHostname.isNone || r.appliedRevision.isSome)
    && (r.status != .active || (r.desiredState == .enabled
      && r.appliedRevision == some r.desiredRevision && r.appliedHostname == some r.hostname))
    && (r.status != .inactive || (r.desiredState == .disabled
      && r.appliedRevision == some r.desiredRevision && r.appliedHostname.isNone))

/-- The column types of `public_route_jobs`. Attempts are `integer`. -/
def JobRow.fits (j : JobRow) : Bool :=
  j.desiredRevision < 2 ^ 63 && j.attempts < 2 ^ 31 && j.leaseOwner.all (·.length ≤ 128)
    && j.lastErrorCode.all (·.length ≤ 64)

/-- The `CHECK` constraints of `public_route_jobs`. -/
def JobRow.checks (j : JobRow) : Bool :=
  0 < j.desiredRevision
    && (if j.state = .claimed then
        j.leaseOwner.isSome && j.leaseExpiresAt.isSome && j.claimToken.isSome
      else j.leaseOwner.isNone && j.leaseExpiresAt.isNone && j.claimToken.isNone)
    && (if j.state = .succeeded ∨ j.state = .failed then j.completedAt.isSome
      else j.completedAt.isNone)

end Heimdall
