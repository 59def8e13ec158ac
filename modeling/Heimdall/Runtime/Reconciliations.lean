import Heimdall.Deployments.Repository

/-!
# The reconciliation repository

Each operation is one transaction, as a function from the tables to an exception or to a result and
the tables after the commit. A request locks the project of its deployment before it looks at the
project's status; every operation under a claim locks the row of the claim, and `claim_next` passes
over the rows it finds locked. An operation reads the clock once, before its transaction starts.
-/

namespace Heimdall

/-- The tables the reconciliation operations read and write. -/
structure ReconciliationDb where
  /-- The status of each existing project. -/
  projects : Uuid → Option ProjectStatus
  /-- The project of each existing deployment. -/
  deployments : Uuid → Option Uuid
  /-- `runtime_reconciliations`. -/
  reconciliations : AList fun _ : Uuid ↦ RuntimeReconciliationRow

namespace ReconciliationDb

/-- `_reconciliation` -/
def reconciliation (d : Uuid) (row : RuntimeReconciliationRow) : RuntimeReconciliation where
  deploymentId := d
  action := row.action
  requestedBy := row.requestedBy
  state := row.state
  result := row.result
  resultCode := row.resultCode
  attempts := row.attempts
  availableAt := row.availableAt
  createdAt := row.createdAt
  updatedAt := row.updatedAt
  completedAt := row.completedAt

/-- Write a row. -/
def put (db : ReconciliationDb) (d : Uuid) (row : RuntimeReconciliationRow) :
    Except Exc ReconciliationDb :=
  if !row.fits then .error .database
  else if !row.checks then .error .checkViolation
  else .ok { db with reconciliations := db.reconciliations.insert d row }

/-- `INSERT INTO runtime_reconciliations`, which refers to an existing deployment. -/
def insert (db : ReconciliationDb) (d : Uuid) (row : RuntimeReconciliationRow) :
    Except Exc ReconciliationDb :=
  if (db.deployments d).isNone then .error .database else db.put d row

/-- The status of the project of a deployment. -/
def projectStatus (db : ReconciliationDb) (d : Uuid) : Option ProjectStatus :=
  (db.deployments d).bind db.projects

def get (db : ReconciliationDb) (d : Uuid) : Option RuntimeReconciliation :=
  (db.reconciliations.lookup d).map (reconciliation d)

def request (db : ReconciliationDb) (d : Uuid) (action : ReconciliationAction)
    (requestedBy : ReconciliationRequester) (now : Time) :
    Except Exc (RuntimeReconciliation × ReconciliationDb) :=
  if db.projectStatus d = some .deleting then .error .reconciliationProjectDeleting
  else match db.reconciliations.lookup d with
    | none => do
      let row : RuntimeReconciliationRow := {
        action, requestedBy, state := .pending, availableAt := now, createdAt := now,
        updatedAt := now }
      let db ← db.insert d row
      .ok (reconciliation d row, db)
    | some current =>
      if current.state = .claimed then .error .reconciliationInProgress
      else do
        let row := { current with
          action, requestedBy, state := .pending, result := none, resultCode := none, attempts := 0,
          availableAt := now, leaseOwner := none, leaseExpiresAt := none, claimToken := none,
          updatedAt := now, completedAt := none }
        let db ← db.put d row
        .ok (reconciliation d row, db)

/-- Schedule one candidate: a deployment and when it is due. -/
def scheduleOne (now : Time) (db : ReconciliationDb) (candidate : Uuid × Time) :
    Except Exc ReconciliationDb :=
  match db.projectStatus candidate.1 with
  | none | some .deleting => .ok db
  | some _ =>
    if (db.reconciliations.lookup candidate.1).isSome then .ok db
    else db.insert candidate.1 {
      action := .reconcile
      requestedBy := .system
      state := .pending
      availableAt := candidate.2
      createdAt := now
      updatedAt := now }

def scheduleAutomatic (db : ReconciliationDb) (candidates : List (Uuid × Time)) (now : Time) :
    Except Exc ReconciliationDb := candidates.foldlM (scheduleOne now) db

/-! ## Claims -/

/-- A row that may be taken: due, or claimed with a lease that has run out. -/
def claimable (now : Time) (row : RuntimeReconciliationRow) : Bool :=
  (row.state == .pending && row.availableAt ≤ now)
    || (row.state == .claimed && row.leaseExpiresAt.any (· ≤ now))

/-- `ORDER BY available_at, created_at, deployment_id`. -/
def before (a b : Uuid × RuntimeReconciliationRow) : Bool :=
  a.2.availableAt < b.2.availableAt || (a.2.availableAt == b.2.availableAt
    && (a.2.createdAt < b.2.createdAt || (a.2.createdAt == b.2.createdAt && a.1.hex ≤ b.1.hex)))

/-- The row `claim_next` takes: the first claimable one that is not locked by somebody else. -/
def next (db : ReconciliationDb) (locked : Uuid → Bool) (now : Time) :
    Option (Uuid × RuntimeReconciliationRow) :=
  (((db.reconciliations.entries.filter fun e ↦ claimable now e.2 && !locked e.1).map fun e ↦
    (e.1, e.2)).insertionSort fun a b ↦ before a b).head?

def claimNext (db : ReconciliationDb) (workerId : String) (leaseDuration : Time) (token : Uuid)
    (locked : Uuid → Bool) (now : Time) :
    Except Exc (Option RuntimeReconciliationClaim × ReconciliationDb) :=
  match db.next locked now with
  | none => .ok (none, db)
  | some (d, row) => do
    let row := { row with
      state := .claimed
      attempts := row.attempts + 1
      leaseOwner := some workerId
      leaseExpiresAt := some (now + leaseDuration)
      claimToken := some token
      updatedAt := now
      completedAt := none }
    let db ← db.put d row
    .ok (some {
      reconciliation := reconciliation d row
      token := token
      workerId := workerId
      leaseExpiresAt := now + leaseDuration }, db)

/-- The fence of a claim on a row: same owner and token, and a lease that is still running. -/
def holdsClaim (row : RuntimeReconciliationRow) (claim : RuntimeReconciliationClaim) (now : Time) :
    Bool :=
  row.state == .claimed && row.leaseOwner == some claim.workerId
    && row.claimToken == some claim.token && row.leaseExpiresAt.any (now < ·)

/-- The update of the row that a claim fences: `_lock_claim` and what follows it. -/
def updateFenced (db : ReconciliationDb) (claim : RuntimeReconciliationClaim) (now : Time)
    (set : RuntimeReconciliationRow → RuntimeReconciliationRow) :
    Except Exc (RuntimeReconciliation × ReconciliationDb) :=
  match db.reconciliations.lookup claim.reconciliation.deploymentId with
  | some row =>
    if holdsClaim row claim now then do
      let db ← db.put claim.reconciliation.deploymentId (set row)
      .ok (reconciliation claim.reconciliation.deploymentId (set row), db)
    else .error .reconciliationClaimLost
  | none => .error .reconciliationClaimLost

def renew (db : ReconciliationDb) (claim : RuntimeReconciliationClaim) (leaseDuration now : Time) :
    Except Exc (Time × ReconciliationDb) := do
  let (_, db) ← db.updateFenced claim now fun row ↦ { row with
    leaseExpiresAt := some (now + leaseDuration)
    updatedAt := now }
  .ok (now + leaseDuration, db)

/-- `_finish` -/
def finish (db : ReconciliationDb) (claim : RuntimeReconciliationClaim)
    (state : ReconciliationState) (result : ReconciliationResult) (code : String) (now : Time) :
    Except Exc (RuntimeReconciliation × ReconciliationDb) :=
  db.updateFenced claim now fun row ↦ { row with
    state := state
    result := some result
    resultCode := some code
    leaseOwner := none
    leaseExpiresAt := none
    claimToken := none
    updatedAt := now
    completedAt := some now }

def resolve (db : ReconciliationDb) (claim : RuntimeReconciliationClaim)
    (result : ReconciliationResult) (code : String) (now : Time) :
    Except Exc (RuntimeReconciliation × ReconciliationDb) :=
  if result = .uncertain then .error .value else db.finish claim .resolved result code now

def block (db : ReconciliationDb) (claim : RuntimeReconciliationClaim) (code : String)
    (now : Time) : Except Exc (RuntimeReconciliation × ReconciliationDb) :=
  db.finish claim .blocked .uncertain code now

def retry (db : ReconciliationDb) (claim : RuntimeReconciliationClaim) (availableAt : Time)
    (code : String) (now : Time) : Except Exc (RuntimeReconciliation × ReconciliationDb) :=
  db.updateFenced claim now fun row ↦ { row with
    state := .pending
    result := none
    resultCode := some code
    availableAt := availableAt
    leaseOwner := none
    leaseExpiresAt := none
    claimToken := none
    updatedAt := now
    completedAt := none }

end ReconciliationDb

end Heimdall
