import Heimdall.Effect.Wp
import Heimdall.Projects.DeletionAuthorization

/-!
# The deletion worker

`ProjectDeletionWorker.run_once`: take a deletion job and carry it from phase to phase, until it
has to wait, it fails, or the project is gone. The repositories, the teardown of the runtime, the
secret store and the server of the databases are operations that answer anything; a teardown is
given the guard and the heartbeat of the claim.

## A monitor

`DeletionMonitor` watches the operations of one call: what the last heartbeat and the last guard
have said, which locks are held, and what has been seen to be absent. Whatever is answered or
raised, nothing is removed unless the claim was renewed and the guard was asked right before, with
the lock held; and the rows are deleted only after all three absences have been seen in the same
call (`runOnce_authorized`).
-/

namespace Heimdall

open Effect

/-- What the deletion worker calls. -/
inductive DeletionOp where
  | claimNext (workerId : String) (leaseDuration : Time)
  | renew (claim : ProjectDeletionJobClaim) (leaseDuration : Time)
  | advance (claim : ProjectDeletionJobClaim) (expected next : ProjectDeletionPhase)
  | reschedule (claim : ProjectDeletionJobClaim) (availableAt : Time) (code : String)
  | defer (claim : ProjectDeletionJobClaim) (availableAt : Time)
  | fail (claim : ProjectDeletionJobClaim) (code : String) (retryable : Bool)
  | operationsDrained (p : Uuid)
  | runtimeSnapshot (p : Uuid)
  | mutationAllowed (claim : ProjectDeletionJobClaim) (requireRouteRemoved : Bool)
  | finalize (claim : ProjectDeletionJobClaim)
  | disableForDeletion (p : Uuid)
  | deletionIsApplied (p : Uuid)
  | teardown (claim : ProjectDeletionJobClaim) (deployments : List Deployment)
    (runtime : Option ProjectRuntime)
  | verifyRuntimeAbsent (claim : ProjectDeletionJobClaim) (deployments : List Deployment)
    (runtime : Option ProjectRuntime)
  /-- Enter `project_operation_lock`, without waiting for it. -/
  | enterSecretLock (p : Uuid)
  | leaveSecretLock (p : Uuid)
  | deleteProjectSubtree (p : Uuid)
  | projectSubtreeAbsent (p : Uuid)
  | getResource (p : Uuid)
  /-- Enter `try_operation_lock`; the answer is whether it was acquired. -/
  | enterDatabaseLock (id : Uuid)
  | leaveDatabaseLock (id : Uuid)
  | quiesce (r : ProjectDatabaseResource)
  | dropDatabase (r : ProjectDatabaseResource)
  | dropRole (r : ProjectDatabaseResource)
  | verifyDatabaseAbsent (r : ProjectDatabaseResource)
  /-- `datetime.now(UTC)` -/
  | now
  /-- The loop over the phases has not ended within its rounds. -/
  | exhausted

namespace DeletionOp

abbrev Ans : DeletionOp → Type
  | .claimNext _ _ => Option ProjectDeletionJobClaim
  | .advance _ _ _ => ProjectDeletionJob
  | .operationsDrained _ | .mutationAllowed _ _ | .deletionIsApplied _ | .projectSubtreeAbsent _
  | .enterDatabaseLock _ => Bool
  | .runtimeSnapshot _ => List Deployment × Option ProjectRuntime
  | .getResource _ => Option ProjectDatabaseResource
  | .now => Time
  | _ => Unit

end DeletionOp

/-- A program of the deletion worker. -/
abbrev DeletionProg (α : Type) : Type := Prog DeletionOp DeletionOp.Ans Exc α

namespace DeletionProg

def raise {α : Type} (x : Exc) : DeletionProg α := Prog.raise x

def op (o : DeletionOp) : DeletionProg o.Ans := Prog.op o

/-- A failure of the deletion with no candidate to clean up. -/
def failure {α : Type} (code : String) (retryable : Bool) : DeletionProg α :=
  raise (.runtimeFailure { stage := "DELETION", code, retryable, cleanupCandidate := false })

end DeletionProg

open DeletionProg

structure ProjectDeletionWorker where
  workerId : String
  leaseDuration : Time
  maxAttempts : ℕ
  retryBaseDelay : Time

namespace ProjectDeletionWorker

variable (worker : ProjectDeletionWorker)

/-- `_heartbeat` -/
def heartbeat (claim : ProjectDeletionJobClaim) : DeletionProg Bool :=
  Prog.tryCatch (do op (.renew claim worker.leaseDuration); pure true) fun
    | .projectDeletionClaimLost => pure false
    | x => raise x

/-- `_authorize` -/
def authorize (claim : ProjectDeletionJobClaim) (requireRouteRemoved : Bool) :
    DeletionProg Unit := do
  if ← worker.heartbeat claim then
    if ← op (.mutationAllowed claim requireRouteRemoved) then pure ()
    else raise .projectDeletionClaimLost
  else raise .projectDeletionClaimLost

/-- `_advance` -/
def advance (claim : ProjectDeletionJobClaim) (expected next : ProjectDeletionPhase) :
    DeletionProg ProjectDeletionJobClaim := do
  let job ← op (.advance claim expected next)
  pure { claim with job }

def retryDelay (claim : ProjectDeletionJobClaim) : Time :=
  worker.retryBaseDelay * (min (2 ^ (claim.job.attempts - 1)) 64 : ℕ)

/-- `_defer` -/
def defer (claim : ProjectDeletionJobClaim) : DeletionProg Unit := do
  let now ← op .now
  op (.defer claim (now + worker.retryDelay claim))

/-- `_reschedule` -/
def reschedule (claim : ProjectDeletionJobClaim) (code : String) : DeletionProg Unit := do
  let now ← op .now
  op (.reschedule claim (now + worker.retryDelay claim) code)

/-- `_handle_failure` -/
def handleFailure (claim : ProjectDeletionJobClaim) (code : String) (retryable : Bool) :
    DeletionProg Unit :=
  if retryable && claim.job.attempts < worker.maxAttempts then worker.reschedule claim code
  else op (.fail claim code retryable)

/-- `_persist_failure` -/
def persistFailure (claim : ProjectDeletionJobClaim) (code : String) (retryable : Bool) :
    DeletionProg Unit :=
  (worker.handleFailure claim code retryable).tryCatch fun
    | .projectDeletionClaimLost => pure ()
    | x => raise x

/-- `with project_operation_lock(...)` -/
def withSecretLock {α : Type} (p : Uuid) (body : DeletionProg α) : DeletionProg α := do
  op (.enterSecretLock p)
  Prog.tryFinally body (op (.leaveSecretLock p))

/-- `_operations_drained` -/
def operationsDrained (claim : ProjectDeletionJobClaim) : DeletionProg Bool := do
  if ← op (.operationsDrained claim.job.projectId) then
    let free ← Prog.tryCatch (do withSecretLock claim.job.projectId (pure ()); pure true) fun
      | .secretStoreBusy => pure false
      | x => raise x
    if free then
      match ← op (.getResource claim.job.projectId) with
      | none => pure true
      | some r =>
        let acquired ← op (.enterDatabaseLock r.id)
        if acquired then op (.leaveDatabaseLock r.id)
        pure acquired
    else pure false
  else pure false

/-- `_validated_database_resource` -/
def validatedResource (claim : ProjectDeletionJobClaim) :
    DeletionProg (Option ProjectDatabaseResource) := do
  let resource ← op (.getResource claim.job.projectId)
  if resource.isSome ≠ claim.job.deleteManagedDatabase then
    failure "PROJECT_DATABASE_AUTHORIZATION_MISMATCH" false
  else pure resource

/-- What a phase of the database does to a resource, under its lock: a failure is raised after the
lock has been left. -/
def underDatabaseLock (claim : ProjectDeletionJobClaim) (r : ProjectDatabaseResource)
    (operation : DeletionOp) : DeletionProg Unit := do
  if ← op (.enterDatabaseLock r.id) then
    let failed ← Prog.tryFinally
      (Prog.tryCatch
        (do worker.authorize claim true; let _ ← op operation; pure none) fun
          | .runtimeFailure f => pure (some f)
          | x => raise x)
      (op (.leaveDatabaseLock r.id))
    match failed with
    | some f => raise (.runtimeFailure f)
    | none => pure ()
  else failure "PROJECT_DATABASE_OPERATION_ACTIVE" true

/-- `_run_database_phase` -/
def runDatabasePhase (claim : ProjectDeletionJobClaim)
    (operation : ProjectDatabaseResource → DeletionOp) : DeletionProg Unit := do
  match ← validatedResource claim with
  | none => pure ()
  | some r => worker.underDatabaseLock claim r (operation r)

/-- What a busy secret store is to a deletion. -/
def secretStoreFree {α : Type} (body : DeletionProg α) : DeletionProg α :=
  body.tryCatch fun
    | .secretStoreBusy => failure "PROJECT_SECRET_OPERATION_ACTIVE" true
    | x => raise x

/-- `_verify_final_absence` -/
def verifyFinalAbsence (claim : ProjectDeletionJobClaim) : DeletionProg Unit := do
  worker.authorize claim true
  let (deployments, runtime) ← op (.runtimeSnapshot claim.job.projectId)
  op (.verifyRuntimeAbsent claim deployments runtime)
  worker.runDatabasePhase claim .verifyDatabaseAbsent
  let absent ← secretStoreFree (withSecretLock claim.job.projectId (do
    worker.authorize claim true
    op (.projectSubtreeAbsent claim.job.projectId)))
  if absent then pure () else failure "PROJECT_SECRET_RESOURCES_REAPPEARED" false

/-- One round of `_run_claim`: the claim in its next phase, or nothing when the call is over. -/
def runPhase (claim : ProjectDeletionJobClaim) : DeletionProg (Option ProjectDeletionJobClaim) :=
  match claim.job.phase with
  | .requested => some <$> advance claim .requested .waitingForOperations
  | .waitingForOperations => do
    if ← operationsDrained claim then
      some <$> advance claim .waitingForOperations .routeDisabling
    else deferred
  | .routeDisabling => do
    worker.authorize claim false
    op (.disableForDeletion claim.job.projectId)
    if ← op (.deletionIsApplied claim.job.projectId) then
      some <$> advance claim .routeDisabling .routeRemoved
    else deferred
  | .routeRemoved => do
    if ← op (.deletionIsApplied claim.job.projectId) then
      some <$> advance claim .routeRemoved .runtimeCleanup
    else deferred
  | .runtimeCleanup => do
    worker.authorize claim true
    let (deployments, runtime) ← op (.runtimeSnapshot claim.job.projectId)
    op (.teardown claim deployments runtime)
    some <$> advance claim .runtimeCleanup .databaseQuiescing
  | .databaseQuiescing => do
    worker.runDatabasePhase claim .quiesce
    some <$> advance claim .databaseQuiescing .databaseDropDatabase
  | .databaseDropDatabase => do
    worker.runDatabasePhase claim .dropDatabase
    some <$> advance claim .databaseDropDatabase .databaseDropRole
  | .databaseDropRole => do
    worker.runDatabasePhase claim .dropRole
    some <$> advance claim .databaseDropRole .secretCleanup
  | .secretCleanup => do
    secretStoreFree (withSecretLock claim.job.projectId (do
      worker.authorize claim true
      op (.deleteProjectSubtree claim.job.projectId)))
    some <$> advance claim .secretCleanup .metadataDelete
  | .metadataDelete => do
    worker.verifyFinalAbsence claim
    op (.finalize claim)
    pure none
where
  deferred : DeletionProg (Option ProjectDeletionJobClaim) := do
    worker.defer claim
    pure none

/-- `_run_claim`, with a number of rounds. -/
def runClaim : ℕ → ProjectDeletionJobClaim → DeletionProg Unit
  | 0, _ => op .exhausted
  | rounds + 1, claim => do
    match ← worker.runPhase claim with
    | none => pure ()
    | some claim => runClaim rounds claim

/-- `run_once`; there are ten phases. -/
def runOnce : DeletionProg Bool := do
  match ← op (.claimNext worker.workerId worker.leaseDuration) with
  | none => pure false
  | some claim =>
    if worker.maxAttempts < claim.job.attempts then
      worker.persistFailure claim "PROJECT_DELETION_ATTEMPTS_EXHAUSTED" true
      pure true
    else
      Prog.tryCatch (worker.runClaim 10 claim) fun
        | .projectDeletionClaimLost => pure ()
        | .runtimeFailure f => worker.persistFailure claim f.code f.retryable
        | .secretStore | .secretStoreBusy =>
          worker.persistFailure claim "PROJECT_SECRET_CLEANUP_FAILED" false
        | x => raise x
      pure true

end ProjectDeletionWorker

/-! ## The monitor -/

/-- What is known of the operations of a call so far. -/
structure DeletionMonitor where
  /-- The claim that has been renewed by the last operation. -/
  renewed : Option ProjectDeletionJobClaim
  /-- The claim that has been renewed and then allowed to go on, with what was required of the
  route; only a snapshot has been read since. -/
  authorized : Option (ProjectDeletionJobClaim × Bool)
  databaseLock : Option Uuid
  secretLock : Option Uuid
  runtimeAbsent : Bool
  databaseAbsent : Bool
  secretsAbsent : Bool

namespace DeletionMonitor

def start : DeletionMonitor := ⟨none, none, none, none, false, false, false⟩

/-- Something else has happened. -/
def forget (s : DeletionMonitor) : DeletionMonitor := { s with renewed := none, authorized := none }

def update (s : DeletionMonitor) : (o : DeletionOp) → Except Exc o.Ans → DeletionMonitor
  | .renew claim _, .ok _ => { s with renewed := some claim, authorized := none }
  | .mutationAllowed claim b, .ok true =>
    { s with
      renewed := none
      authorized := if s.renewed = some claim then some (claim, b) else none }
  | .runtimeSnapshot _, _ => s
  | .enterDatabaseLock id, .ok true => { s.forget with databaseLock := some id }
  | .leaveDatabaseLock _, _ => { s.forget with databaseLock := none }
  | .enterSecretLock p, .ok _ => { s.forget with secretLock := some p }
  | .leaveSecretLock _, _ => { s.forget with secretLock := none }
  | .verifyRuntimeAbsent _ _ _, .ok _ => { s.forget with runtimeAbsent := true }
  | .verifyDatabaseAbsent _, .ok _ => { s.forget with databaseAbsent := true }
  | .getResource _, .ok none => { s.forget with databaseAbsent := true }
  | .projectSubtreeAbsent _, .ok absent => { s.forget with secretsAbsent := absent }
  | _, _ => s.forget

/-- The server of the databases may be touched for this resource: the claim has just been renewed
and allowed, the route of its project is gone, the deletion includes the database, and the lock of
the resource is held. -/
def MayTouch (s : DeletionMonitor) (r : ProjectDatabaseResource) : Prop :=
  (∃ claim, s.authorized = some (claim, true) ∧ claim.job.deleteManagedDatabase = true)
    ∧ s.databaseLock = some r.id

/-- What has to hold before an operation. -/
def Allows (s : DeletionMonitor) : DeletionOp → Prop
  | .quiesce r | .dropDatabase r | .dropRole r | .verifyDatabaseAbsent r => s.MayTouch r
  | .teardown claim _ _ | .verifyRuntimeAbsent claim _ _ => s.authorized = some (claim, true)
  | .deleteProjectSubtree p | .projectSubtreeAbsent p =>
    (∃ claim, s.authorized = some (claim, true) ∧ claim.job.projectId = p) ∧ s.secretLock = some p
  | .disableForDeletion p =>
    ∃ claim, s.authorized = some (claim, false) ∧ claim.job.projectId = p
  | .advance claim expected next =>
    claim.job.phase = expected ∧ next.index = expected.index + 1
  | .finalize claim => claim.job.phase = .metadataDelete ∧ s.runtimeAbsent = true
    ∧ s.databaseAbsent = true ∧ s.secretsAbsent = true
  | .exhausted => False
  | _ => True

/-- An absence that has been seen stays seen. -/
def Later (s s' : DeletionMonitor) : Prop :=
  (s.runtimeAbsent = true → s'.runtimeAbsent = true)
    ∧ (s.databaseAbsent = true → s'.databaseAbsent = true)

theorem Later.refl (s : DeletionMonitor) : s.Later s := ⟨id, id⟩

theorem Later.trans {s s' s'' : DeletionMonitor} (h : s.Later s') (h' : s'.Later s'') :
    s.Later s'' := ⟨fun hs ↦ h'.1 (h.1 hs), fun hs ↦ h'.2 (h.2 hs)⟩

theorem later_update (s : DeletionMonitor) (o : DeletionOp) (r : Except Exc o.Ans) :
    s.Later (s.update o r) := by
  unfold update
  split <;> exact ⟨fun h ↦ by simp [forget, h], fun h ↦ by simp [forget, h]⟩

end DeletionMonitor

/-- What is known of an answer: a job that was moved on is in the phase it was moved to. -/
def DeletionAnswer : (o : DeletionOp) → Except Exc o.Ans → Prop
  | .advance claim _ next, .ok job => job.phase = next ∧ job.projectId = claim.job.projectId
  | _, _ => True

/-- It is what the repository answers. -/
theorem advanceDeletion_answer {db db' : Database} {claim : ProjectDeletionJobClaim}
    {expected next : ProjectDeletionPhase} {now : ℕ → Time} {job : ProjectDeletionJob}
    (h : db.advanceDeletion claim expected next now = .ok (job, db')) :
    DeletionAnswer (.advance claim expected next) (.ok job) := by
  unfold Database.advanceDeletion at h
  split at h
  · cases h
  split at h
  · cases h
  unfold Database.updateDeletion at h
  split at h
  · split at h
    · obtain ⟨db₁, -, h⟩ := bind_eq_ok h
      obtain ⟨rfl, -⟩ := Prod.mk.inj (Except.ok.inj h)
      exact ⟨rfl, rfl⟩
    · cases h
  · cases h

/-- The monitor beside a world that answers anything. -/
def deletionStep : Env DeletionMonitor DeletionOp DeletionOp.Ans Exc :=
  fun s o r s' ↦ DeletionAnswer o r ∧ s' = s.update o r

def deletionSetting : Setting DeletionMonitor DeletionOp DeletionOp.Ans Exc :=
  .alone deletionStep fun s o _ _ ↦ s.Allows o

/-- `p` performs only what is allowed, and what it returns satisfies `P`. -/
def Runs {α : Type} (p : DeletionProg α) (P : α → DeletionMonitor → Prop) (s : DeletionMonitor) :
    Prop :=
  wp deletionSetting p (fun r s' ↦ ∀ a, r = .ok a → P a s') s

namespace Runs

variable {α β : Type} {P : α → DeletionMonitor → Prop} {R : β → DeletionMonitor → Prop}
  {s : DeletionMonitor} {p : DeletionProg α} {f : α → DeletionProg β}

theorem pure {a : α} (h : P a s) : Runs (Pure.pure a) P s := by
  rintro b hb
  exact Except.ok.inj hb ▸ h

theorem raise {x : Exc} : Runs (DeletionProg.raise x : DeletionProg α) P s := by
  rintro b hb
  cases hb

theorem mono {P' : α → DeletionMonitor → Prop} (h : Runs p P s) (hP : ∀ a s', P a s' → P' a s') :
    Runs p P' s :=
  wp_mono h fun _ s' hr a ha ↦ hP a s' (hr a ha)

theorem bind (h : Runs p P s) (hf : ∀ a s', P a s' → Runs (f a) R s') : Runs (p >>= f) R s := by
  rw [Runs, wp_bind]
  refine wp_mono h fun r s' hr ↦ ?_
  cases r with
  | error x =>
    rintro b hb
    cases hb
  | ok a => exact hf a s' (hr a rfl)

theorem op {o : DeletionOp} {Q : o.Ans → DeletionMonitor → Prop} (hallows : s.Allows o)
    (h : ∀ a, DeletionAnswer o (.ok a) → Q a (s.update o (.ok a))) :
    Runs (DeletionProg.op o) Q s := by
  rw [Runs, DeletionProg.op, wp_op]
  rintro s₁ rfl r s₂ ⟨hanswer, rfl⟩
  refine ⟨hallows, ?_⟩
  rintro a rfl
  exact h a hanswer

theorem tryCatch {handler : Exc → DeletionProg α} (h : Runs p P s)
    (hhandler : ∀ x s', Runs (handler x) P s') : Runs (p.tryCatch handler) P s := by
  rw [Runs, wp_tryCatch]
  refine wp_mono h fun r s' hr ↦ ?_
  cases r with
  | error x => exact hhandler x s'
  | ok a => exact hr

theorem tryFinally {c : DeletionProg Unit} {P' : α → DeletionMonitor → Prop} (h : Runs p P s)
    (hc : ∀ s', Runs c (fun _ _ ↦ True) s')
    (hP : ∀ a s', P a s' → Runs c (fun _ s'' ↦ P' a s'') s') : Runs (p.tryFinally c) P' s := by
  rw [Runs, wp_tryFinally]
  refine wp_mono h fun r s' hr ↦ ?_
  cases r with
  | error x =>
    -- the program returns nothing here, whatever leaving does
    refine wp_mono (hc s') fun u s'' _ ↦ ?_
    cases u with
    | error y =>
      rintro a ha
      cases ha
    | ok u =>
      rw [andThen_ok, wp_ofExcept]
      rintro a ha
      cases ha
  | ok a =>
    refine wp_mono (hP a s' (hr a rfl)) fun u s'' hu ↦ ?_
    cases u with
    | error y =>
      rintro b hb
      cases hb
    | ok u =>
      rw [andThen_ok, wp_ofExcept]
      rintro b hb
      exact Except.ok.inj hb ▸ hu u rfl

/-- An absence that was seen before a program is still seen after it. -/
theorem later (h : Runs p P s) : Runs p (fun a s' ↦ P a s' ∧ s.Later s') s := by
  have hall : ∀ (Q : Except Exc α → DeletionMonitor → Prop) (s₀ s : DeletionMonitor), s₀.Later s →
      wp deletionSetting p Q s → wp deletionSetting p (fun r s' ↦ Q r s' ∧ s₀.Later s') s := by
    clear h
    induction p with
    | pure a => exact fun _ _ _ hlater h ↦ ⟨h, hlater⟩
    | raise x => exact fun _ _ _ hlater h ↦ ⟨h, hlater⟩
    | call o k ih =>
      intro Q s₀ s hlater h s₁ hs r s₂ hstep
      obtain ⟨hguar, hk⟩ := h s₁ hs r s₂ hstep
      refine ⟨hguar, ih r Q s₀ s₂ ?_ hk⟩
      -- nobody else moves the monitor, so it is where the operation before has left it
      obtain rfl : s = s₁ := hs
      obtain rfl := hstep.2
      exact hlater.trans (DeletionMonitor.later_update s o r)
  exact wp_mono (hall _ s s (.refl s) h) fun r s' hr a ha ↦ ⟨hr.1 a ha, hr.2⟩

end Runs

/-! ## What the parts of a call do -/

namespace ProjectDeletionWorker

variable {worker : ProjectDeletionWorker} {claim : ProjectDeletionJobClaim} {s : DeletionMonitor}

theorem runs_heartbeat : Runs (worker.heartbeat claim)
    (fun alive s' ↦ alive = true → s' = { s with renewed := some claim, authorized := none }) s := by
  refine .tryCatch (.bind (.op (Q := fun _ s' ↦
    s' = { s with renewed := some claim, authorized := none }) trivial fun _ _ ↦ rfl) ?_) ?_
  · rintro _ s' rfl
    exact .pure fun _ ↦ rfl
  · intro x s'
    split
    · exact .pure fun h ↦ by cases h
    · exact .raise

/-- After it the claim has been renewed and allowed. -/
theorem runs_authorize {b : Bool} : Runs (worker.authorize claim b)
    (fun _ s' ↦ s' = { s with renewed := none, authorized := some (claim, b) }) s := by
  refine .bind runs_heartbeat fun alive s₁ halive ↦ ?_
  split
  · next h =>
    obtain rfl := halive h
    refine .bind (.op (Q := fun allowed s' ↦ allowed = true →
      s' = { s with renewed := none, authorized := some (claim, b) }) trivial ?_) ?_
    · rintro allowed - h
      subst h
      simp [DeletionMonitor.update]
    · intro allowed s₂ hallowed
      split
      · next h => exact .pure (hallowed h)
      · exact .raise
  · exact .raise

theorem runs_defer : Runs (worker.defer claim) (fun _ _ ↦ True) s :=
  .bind (.op (Q := fun _ _ ↦ True) trivial fun _ _ ↦ trivial) fun _ _ _ ↦
    .op trivial fun _ _ ↦ trivial

theorem runs_persistFailure {code : String} {retryable : Bool} :
    Runs (worker.persistFailure claim code retryable) (fun _ _ ↦ True) s := by
  refine .tryCatch ?_ fun x s' ↦ ?_
  · rw [handleFailure]
    split
    · exact .bind (.op (Q := fun _ _ ↦ True) trivial fun _ _ ↦ trivial) fun _ _ _ ↦
        .op trivial fun _ _ ↦ trivial
    · exact .op trivial fun _ _ ↦ trivial
  · split
    · exact .pure trivial
    · exact .raise

/-- A body under the lock of the secrets. -/
theorem runs_withSecretLock {α : Type} {p : Uuid} {body : DeletionProg α}
    {P : α → DeletionMonitor → Prop}
    (hbody : ∀ s', s'.secretLock = some p → s.Later s' → Runs body P s')
    (hleave : ∀ a s', P a s' → P a { s'.forget with secretLock := none }) :
    Runs (withSecretLock p body) P s := by
  refine .bind (.op (Q := fun _ s' ↦ s'.secretLock = some p ∧ s.Later s') trivial ?_) ?_
  · exact fun _ _ ↦ ⟨rfl, s.later_update (.enterSecretLock p) (.ok ())⟩
  · rintro _ s' ⟨hlock, hlater⟩
    refine .tryFinally (hbody s' hlock hlater) (fun _ ↦ .op trivial fun _ _ ↦ trivial) ?_
    exact fun a s' h ↦ .op trivial fun _ _ ↦ hleave a s' h

theorem runs_operationsDrained : Runs (operationsDrained claim) (fun _ _ ↦ True) s := by
  refine .bind (.op (Q := fun _ _ ↦ True) trivial fun _ _ ↦ trivial) fun drained _ _ ↦ ?_
  split
  · refine .bind (P := fun _ _ ↦ True) (.tryCatch ?_ fun x _ ↦ ?_) fun free _ _ ↦ ?_
    · refine .bind (P := fun _ _ ↦ True) ?_ fun _ _ _ ↦ .pure trivial
      exact runs_withSecretLock (P := fun _ _ ↦ True) (fun _ _ _ ↦ .pure trivial)
        fun _ _ _ ↦ trivial
    · split
      · exact .pure trivial
      · exact .raise
    · split
      · refine .bind (.op (Q := fun _ _ ↦ True) trivial fun _ _ ↦ trivial) fun resource _ _ ↦ ?_
        split
        · exact .pure trivial
        · refine .bind (.op (Q := fun _ _ ↦ True) trivial fun _ _ ↦ trivial) fun acquired _ _ ↦ ?_
          simp only
          split
          · exact .bind (.op (Q := fun _ _ ↦ True) trivial fun _ _ ↦ trivial) fun _ _ _ ↦
              .pure trivial
          · exact .pure trivial
      · exact .pure trivial
  · exact .pure trivial

theorem runs_validatedResource : Runs (validatedResource claim)
    (fun resource s' ↦ resource.isSome = claim.job.deleteManagedDatabase
      ∧ (resource = none → s'.databaseAbsent = true)) s := by
  refine .bind
    (.op (Q := fun resource s' ↦ resource = none → s'.databaseAbsent = true) trivial ?_) ?_
  · rintro resource - rfl
    rfl
  · intro resource s' habsent
    split
    · exact .raise
    · next h => exact .pure ⟨not_not.mp h, habsent⟩

section Database

variable {D : DeletionMonitor → Prop}

/-- A phase of the database, on a resource that the deletion includes. -/
theorem runs_underDatabaseLock {r : ProjectDatabaseResource} {operation : DeletionOp}
    (hincluded : claim.job.deleteManagedDatabase = true)
    (hallows : ∀ s' : DeletionMonitor, s'.MayTouch r → s'.Allows operation)
    (hdone : ∀ (s' : DeletionMonitor) a, D (s'.update operation (.ok a)))
    (hleave : ∀ s', D s' → D { s'.forget with databaseLock := none }) :
    Runs (worker.underDatabaseLock claim r operation) (fun _ s' ↦ D s') s := by
  refine .bind (.op (Q := fun acquired s' ↦ acquired = true → s'.databaseLock = some r.id) trivial
    ?_) fun acquired s₁ hlock ↦ ?_
  · rintro acquired - rfl
    rfl
  split
  · next h =>
    refine .bind (P := fun failed s' ↦ failed = none → D s')
      (.tryFinally (P := fun failed s' ↦ failed = none → D s') (.tryCatch ?_ ?_)
        (fun _ ↦ .op trivial fun _ _ ↦ trivial) ?_) ?_
    · -- between the authorization and the operation nothing else happens
      refine .bind runs_authorize fun _ s₂ hs₂ ↦ ?_
      subst hs₂
      refine .bind (.op (Q := fun _ s' ↦ D s') (hallows _ ⟨⟨claim, rfl, hincluded⟩, hlock h⟩)
        fun a _ ↦ hdone _ a) fun _ s₃ hD ↦ .pure fun _ ↦ hD
    · intro x s'
      split
      · exact .pure fun h ↦ by cases h
      · exact .raise
    · exact fun failed s' hD ↦ .op trivial fun _ _ hnone ↦ hleave s' (hD hnone)
    · intro failed s' hD
      split
      · exact .raise
      · exact .pure (hD rfl)
  · exact .raise

theorem runs_runDatabasePhase {operation : ProjectDatabaseResource → DeletionOp}
    (hallows : ∀ r (s' : DeletionMonitor), s'.MayTouch r → s'.Allows (operation r))
    (hdone : ∀ r (s' : DeletionMonitor) a, D (s'.update (operation r) (.ok a)))
    (hleave : ∀ s', D s' → D { s'.forget with databaseLock := none })
    (hnone : ∀ s', s'.databaseAbsent = true → D s') :
    Runs (worker.runDatabasePhase claim operation) (fun _ s' ↦ D s') s := by
  refine .bind runs_validatedResource fun resource s₁ h ↦ ?_
  obtain ⟨hincluded, habsent⟩ := h
  split
  · exact .pure (hnone s₁ (habsent rfl))
  · exact runs_underDatabaseLock hincluded.symm (hallows _) (hdone _) hleave

end Database

/-- All three absences are seen. -/
theorem runs_verifyFinalAbsence : Runs (worker.verifyFinalAbsence claim)
    (fun _ s' ↦ s'.runtimeAbsent = true ∧ s'.databaseAbsent = true ∧ s'.secretsAbsent = true) s := by
  refine .bind runs_authorize fun _ s₁ hs₁ ↦ ?_
  subst hs₁
  refine .bind (.op (Q := fun _ s' ↦ s'.authorized = some (claim, true)) trivial fun _ _ ↦ rfl)
    fun snapshot s₂ hauthorized ↦ ?_
  obtain ⟨deployments, runtime⟩ := snapshot
  refine .bind (.op (Q := fun _ s' ↦ s'.runtimeAbsent = true) hauthorized fun _ _ ↦ rfl)
    fun _ s₃ hruntime ↦ ?_
  refine .bind (.later (runs_runDatabasePhase (D := fun s' ↦ s'.databaseAbsent = true)
    (fun _ _ h ↦ h) (fun _ _ _ ↦ rfl) (fun _ h ↦ h) fun _ h ↦ h)) fun _ s₄ h₄ ↦ ?_
  obtain ⟨hdatabase, hlater⟩ := h₄
  refine .bind (P := fun absent s' ↦ s'.runtimeAbsent = true ∧ s'.databaseAbsent = true
    ∧ s'.secretsAbsent = absent) (.tryCatch ?_ fun x s' ↦ ?_) fun absent s' h ↦ ?_
  · refine runs_withSecretLock (fun s₅ hlock hlater' ↦ ?_) fun _ _ h ↦ h
    refine .bind runs_authorize fun _ s₆ hs₆ ↦ ?_
    subst hs₆
    exact .op ⟨⟨claim, rfl, rfl⟩, hlock⟩ fun absent _ ↦
      ⟨hlater'.1 (hlater.1 hruntime), hlater'.2 hdatabase, rfl⟩
  · split
    · exact .raise
    · exact .raise
  · split
    · next habsent => exact .pure ⟨h.1, h.2.1, h.2.2.trans habsent⟩
    · exact .raise

/-- What a round leaves for the next. -/
def NextPhase (claim : ProjectDeletionJobClaim) (next : Option ProjectDeletionJobClaim)
    (_ : DeletionMonitor) : Prop :=
  ∀ claim', next = some claim' → claim'.job.phase.index = claim.job.phase.index + 1

theorem runs_advance {expected next : ProjectDeletionPhase} (hphase : claim.job.phase = expected)
    (hnext : next.index = expected.index + 1) :
    Runs (some <$> advance claim expected next) (NextPhase claim) s := by
  change Runs (advance claim expected next >>= fun claim' ↦ Pure.pure (some claim')) _ s
  refine .bind (P := fun claim' _ ↦ claim'.job.phase = next) ?_ fun claim' s' h ↦ .pure ?_
  · refine .bind (.op (Q := fun (job : ProjectDeletionJob) _ ↦ job.phase = next) ⟨hphase, hnext⟩
      fun job h ↦ h.1) fun job s' h ↦ .pure h
  · rintro claim'' heq
    obtain rfl := Option.some.inj heq
    rw [h, hnext, hphase]

theorem runs_deferred : Runs (runPhase.deferred worker claim) (NextPhase claim) s := by
  refine .bind runs_defer fun _ _ _ ↦ .pure ?_
  rintro claim' h
  cases h

theorem runs_runPhase : Runs (worker.runPhase claim) (NextPhase claim) s := by
  unfold runPhase
  split
  · next h => exact runs_advance h rfl
  · next h =>
    refine .bind runs_operationsDrained fun drained _ _ ↦ ?_
    split
    · exact runs_advance h rfl
    · exact runs_deferred
  · next h =>
    refine .bind runs_authorize fun _ s₁ hs₁ ↦ ?_
    subst hs₁
    refine .bind (.op (Q := fun _ _ ↦ True) ⟨claim, rfl, rfl⟩ fun _ _ ↦ trivial) fun _ _ _ ↦ ?_
    refine .bind (.op (Q := fun _ _ ↦ True) trivial fun _ _ ↦ trivial) fun applied _ _ ↦ ?_
    split
    · exact runs_advance h rfl
    · exact runs_deferred
  · next h =>
    refine .bind (.op (Q := fun _ _ ↦ True) trivial fun _ _ ↦ trivial) fun applied _ _ ↦ ?_
    split
    · exact runs_advance h rfl
    · exact runs_deferred
  · next h =>
    refine .bind runs_authorize fun _ s₁ hs₁ ↦ ?_
    subst hs₁
    refine .bind (.op (Q := fun _ s' ↦ s'.authorized = some (claim, true)) trivial fun _ _ ↦ rfl)
      fun snapshot s₂ hauthorized ↦ ?_
    obtain ⟨deployments, runtime⟩ := snapshot
    exact .bind (.op (Q := fun _ _ ↦ True) hauthorized fun _ _ ↦ trivial) fun _ _ _ ↦
      runs_advance h rfl
  · next h =>
    exact .bind (runs_runDatabasePhase (D := fun _ ↦ True) (fun _ _ h ↦ h) (fun _ _ _ ↦ trivial)
      (fun _ _ ↦ trivial) fun _ _ ↦ trivial) fun _ _ _ ↦ runs_advance h rfl
  · next h =>
    exact .bind (runs_runDatabasePhase (D := fun _ ↦ True) (fun _ _ h ↦ h) (fun _ _ _ ↦ trivial)
      (fun _ _ ↦ trivial) fun _ _ ↦ trivial) fun _ _ _ ↦ runs_advance h rfl
  · next h =>
    exact .bind (runs_runDatabasePhase (D := fun _ ↦ True) (fun _ _ h ↦ h) (fun _ _ _ ↦ trivial)
      (fun _ _ ↦ trivial) fun _ _ ↦ trivial) fun _ _ _ ↦ runs_advance h rfl
  · next h =>
    refine .bind (P := fun _ _ ↦ True) (.tryCatch ?_ fun x s' ↦ ?_) fun _ _ _ ↦ runs_advance h rfl
    · refine runs_withSecretLock (fun s₁ hlock _ ↦ ?_) fun _ _ _ ↦ trivial
      refine .bind runs_authorize fun _ s₂ hs₂ ↦ ?_
      subst hs₂
      exact .op ⟨⟨claim, rfl, rfl⟩, hlock⟩ fun _ _ ↦ trivial
    · split
      · exact .raise
      · exact .raise
  · next h =>
    refine .bind runs_verifyFinalAbsence fun _ s₁ habsent ↦ ?_
    refine .bind (.op (Q := fun _ _ ↦ True) ⟨h, habsent⟩ fun _ _ ↦ trivial) fun _ _ _ ↦ .pure ?_
    rintro claim' h
    cases h

theorem index_lt (phase : ProjectDeletionPhase) : phase.index < 10 := by
  cases phase <;> decide

/-- The loop ends: every round is one phase further. -/
theorem runs_runClaim {rounds : ℕ} (h : 10 ≤ rounds + claim.job.phase.index) :
    Runs (worker.runClaim rounds claim) (fun _ _ ↦ True) s := by
  -- after each round the phase is one later, so the rounds that are left still suffice
  induction rounds generalizing claim s with
  | zero =>
    have hlt := index_lt claim.job.phase
    omega
  | succ rounds ih =>
    refine .bind runs_runPhase fun next s₁ hnext ↦ ?_
    split
    · exact .pure trivial
    · next claim' =>
      refine ih ?_
      have hphase := hnext claim' rfl
      omega

/-- **Nothing is removed on an old authorization**: in every call, finished or cut off, whatever is
answered or raised, each operation is allowed when it is performed. -/
theorem runOnce_authorized (worker : ProjectDeletionWorker)
    {t : List (Event DeletionMonitor DeletionOp DeletionOp.Ans Exc)} {p' : DeletionProg Bool}
    {s' : DeletionMonitor} (ht : Trace deletionStep worker.runOnce .start t p' s')
    {e : Event DeletionMonitor DeletionOp DeletionOp.Ans Exc} (he : e ∈ t) : e.pre.Allows e.op := by
  have hrun : Runs worker.runOnce (fun _ _ ↦ True) .start := by
    refine .bind (.op (Q := fun _ _ ↦ True) trivial fun _ _ ↦ trivial) fun next s₁ _ ↦ ?_
    split
    · exact .pure trivial
    · next claim =>
      split
      · exact .bind runs_persistFailure fun _ _ _ ↦ .pure trivial
      · refine .bind (P := fun _ _ ↦ True)
          (.tryCatch (runs_runClaim (Nat.le_add_right 10 _)) fun x s' ↦ ?_)
          fun _ _ _ ↦ .pure trivial
        split
        · exact .pure trivial
        · exact runs_persistFailure
        · exact runs_persistFailure
        · exact runs_persistFailure
        · exact .raise
  exact (wp_trace hrun ht).1 e he

/-- A claim whose secrets are next. -/
def secretsClaim : ProjectDeletionJobClaim where
  job := {
    projectId := .ofNat 7
    state := .claimed
    phase := .secretCleanup
    attempts := 1
    availableAt := 0
    leaseOwner := some "worker"
    leaseExpiresAt := some 60
    claimToken := some (.ofNat 1)
    deleteManagedDatabase := false
    createdAt := 0
    updatedAt := 0
  }
  token := .ofNat 1
  workerId := "worker"
  leaseExpiresAt := 60

/-- A call that gets to the secrets removes them on an authorization of this claim, under the
lock. -/
theorem runOnce_authorized_sample :
    DeletionMonitor.Allows
      ⟨none, some (secretsClaim, true), none, some (.ofNat 7), false, false, false⟩
      (.deleteProjectSubtree (.ofNat 7)) := by
  have hrenewed : (⟨some secretsClaim, none, none, some (.ofNat 7), false, false, false⟩ :
      DeletionMonitor).update (.mutationAllowed secretsClaim true) (.ok true)
        = ⟨none, some (secretsClaim, true), none, some (.ofNat 7), false, false, false⟩ := by
    simp [DeletionMonitor.update]
  refine runOnce_authorized ⟨"worker", 60, 3, 1⟩
    (.cons (r := .ok (some secretsClaim)) ⟨trivial, rfl⟩
      (.cons (r := .ok ()) ⟨trivial, rfl⟩
        (.cons (r := .ok ()) ⟨trivial, rfl⟩
          (.cons (r := .ok true) ⟨trivial, hrenewed.symm⟩
            (.cons (r := .ok ()) ⟨trivial, rfl⟩ (.nil _ _))))))
    (List.mem_cons_of_mem _ (List.mem_cons_of_mem _ (List.mem_cons_of_mem _
      (List.mem_cons_of_mem _ List.mem_cons_self))))

end ProjectDeletionWorker

end Heimdall
