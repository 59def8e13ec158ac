import Heimdall.Deployments.Attempts

/-!
# What the workers do with a deployment

Any number of workers take jobs, run deployments and crash, beside whoever else uses the repository;
a lease may run out at any moment and any call may fail. `WorkerHistory` keeps the tables with the
claims that were handed out, each with the worker it was handed to, and with everything the workers
have done.

A claim is handed to one worker, so what was done under it was done by one run of `run_once`, and what
a run may still do depends on nothing that others did under other claims (`Rely`). That each operation
follows the rules (`Rule`) is a property of the program; that a deployment is processed no more often
than `max_attempts` follows from the rules and from the counter of its job.
-/

namespace Heimdall

open Effect

/-- The claim an operation of the repository presents. -/
def DeploymentOp.claim? : DeploymentOp → Option DeploymentJobClaim
  | .renew claim _ | .advance claim _ _ _ | .succeed claim | .fail claim _ _ | .retry claim _ _ _
  | .recordDiagnostics claim _ _ _ _ => some claim
  | _ => none

namespace DeploymentWorkerOp

/-- The claim an operation is performed under. -/
def claim? : DeploymentWorkerOp → Option DeploymentJobClaim
  | .repository op => op.claim?
  | .recover claim | .process claim | .cleanupCandidate claim | .rollbackCandidate claim
  | .captureDiagnostics claim _ | .now claim | .finished claim => some claim
  | .onRuntimeReady _ => none

/-- An operation on something other than the repository. -/
def isOutside : DeploymentWorkerOp → Bool
  | .repository _ => false
  | _ => true

/-- An operation that may raise. -/
def mayRaise : DeploymentWorkerOp → Bool
  | .now _ | .finished _ => false
  | _ => true

end DeploymentWorkerOp

/-- Something a worker did, with the tables before and after it. -/
abbrev WorkerEvent := Event DeploymentDb DeploymentWorkerOp DeploymentWorkerOp.Ans Exc

/-! ## What the workers have done -/

/-- Recovery has said this about the candidate of the claim. -/
def Recovered (log : List WorkerEvent) (claim : DeploymentJobClaim) (r : RecoveryDisposition) :
    Prop := ∃ pre post, (⟨pre, .recover claim, .ok r, post⟩ : WorkerEvent) ∈ log

/-- The claim was lost. -/
def ClaimLost (log : List WorkerEvent) (claim : DeploymentJobClaim) : Prop :=
  ∃ e ∈ log, e.op.claim? = some claim ∧ e.ans = .error .deploymentClaimLost

/-- The failure of a claim could not be recorded: the repository raised something other than a lost
claim, or the time of the next attempt is beyond the end of the calendar. -/
inductive Spoils (retryBaseDelay : Time) (claim : DeploymentJobClaim) : WorkerEvent → Prop
  | retry (pre post : DeploymentDb) (availableAt : Time) (stage code : String) (x : Exc)
    (hx : x ≠ .deploymentClaimLost) : Spoils retryBaseDelay claim
      ⟨pre, .repository (.retry claim availableAt stage code), .error x, post⟩
  | fail (pre post : DeploymentDb) (stage code : String) (x : Exc)
    (hx : x ≠ .deploymentClaimLost) : Spoils retryBaseDelay claim
      ⟨pre, .repository (.fail claim stage code), .error x, post⟩
  | overflow (pre post : DeploymentDb) (now : Time)
    (h : datetimeMax < now + retryBaseDelay * 2 ^ (claim.attempts - 1)) :
    Spoils retryBaseDelay claim ⟨pre, .now claim, .ok now, post⟩

/-- The claim a deployment is processed under. -/
def processes (e : WorkerEvent) : Option DeploymentJobClaim :=
  match e.op with
  | .process claim => some claim
  | _ => none

/-- The claims under which a deployment was processed. -/
def processed (log : List WorkerEvent) (d : Uuid) : List DeploymentJobClaim :=
  (log.filterMap processes).filter fun claim ↦ claim.deployment.id = d

/-- What is promised of the workers. -/
structure Disciplined (maxAttempts : ℕ) (log : List WorkerEvent) : Prop where
  /-- A deployment is processed `maxAttempts` times at most. -/
  attempts : ∀ d, (processed log d).length ≤ maxAttempts
  /-- After the first claim, a deployment is processed only when recovery under the same claim has
  said that it is safe. -/
  recovered : ∀ before e after claim, log = before ++ e :: after → e.op = .process claim →
    1 < claim.attempts → Recovered before claim .safeToRetry
  /-- When recovery is uncertain, the candidate is left alone. -/
  preserved : ∀ before e after claim, log = before ++ e :: after →
    e.op = .cleanupCandidate claim ∨ e.op = .rollbackCandidate claim →
    ¬Recovered before claim .uncertain
  /-- When a worker is done with a claim beyond the last attempt, the deployment has ended, or the
  claim was lost. -/
  ended : ∀ before e after claim, log = before ++ e :: after → e.op = .finished claim →
    maxAttempts < claim.attempts → ClaimLost before claim ∨ e.pre.Terminal claim.deployment.id

/-- Whenever recovery was uncertain, that could be recorded. -/
def Recordable (retryBaseDelay : Time) (log : List WorkerEvent) : Prop :=
  ∀ claim, Recovered log claim .uncertain → ∀ e ∈ log, ¬Spoils retryBaseDelay claim e

/-- What a worker may do next. -/
structure Rule (maxAttempts : ℕ) (retryBaseDelay : Time) (before : List WorkerEvent)
    (e : WorkerEvent) : Prop where
  process : ∀ claim, e.op = .process claim → claim.attempts ≤ maxAttempts
    ∧ (1 < claim.attempts → Recovered before claim .safeToRetry)
  cleanup : ∀ claim, e.op = .cleanupCandidate claim ∨ e.op = .rollbackCandidate claim →
    Recovered before claim .uncertain → ∃ e' ∈ before, Spoils retryBaseDelay claim e'
  finished : ∀ claim, e.op = .finished claim → maxAttempts < claim.attempts →
    ClaimLost before claim ∨ e.pre.Terminal claim.deployment.id

/-! ## Histories -/

/-- The tables, the claims with the workers they were handed to, latest first, and what the workers
have done. -/
structure WorkerHistory where
  db : DeploymentDb
  issued : List (ℕ × DeploymentJobClaim)
  log : List WorkerEvent

namespace WorkerHistory

/-- The transaction behind an operation of a worker, with what the repository draws for it. -/
inductive Behind : DeploymentOp → DeploymentCall → Prop
  | renew (claim : DeploymentJobClaim) (duration : Time) :
    Behind (.renew claim duration) (.renew claim duration)
  | succeed (claim : DeploymentJobClaim) : Behind (.succeed claim) (.succeed claim)
  | fail (claim : DeploymentJobClaim) (stage code : String) :
    Behind (.fail claim stage code) (.fail claim stage code)
  | retry (claim : DeploymentJobClaim) (availableAt : Time) (stage code : String) :
    Behind (.retry claim availableAt stage code) (.retry claim availableAt stage code)
  | recordDiagnostics (claim : DeploymentJobClaim) (stage code : String)
    (drafts : List DiagnosticArtifactDraft) (retention : Time)
    (artifacts : List (Uuid × DiagnosticArtifactDraft)) (hdrafts : artifacts.map Prod.snd = drafts) :
    Behind (.recordDiagnostics claim stage code drafts retention)
      (.recordDiagnostics claim ⟨stage, code, artifacts, retention⟩)

/-- What comes of an operation of a worker: the tables after it and the claim it hands out. An answer
of the repository may be lost, whether its transaction was committed or not. -/
inductive React (h : WorkerHistory) : (o : DeploymentWorkerOp) → Except Exc o.Ans →
    DeploymentDb → Option DeploymentJobClaim → Prop
  | raise {o : DeploymentWorkerOp} (ho : o.mayRaise = true) (x : Exc) :
    React h o (.error x) h.db none
  | claimNext {workerId : String} {duration : Time} {token : Uuid} {locked : Uuid → Bool}
    {eventId : ℕ} {now : Time} {claim : Option DeploymentJobClaim} {db : DeploymentDb}
    {r : Except Exc (Option DeploymentJobClaim)} (hfresh : ∀ x ∈ h.issued, x.2.token ≠ token)
    (hexec : (DeploymentCall.claimNext workerId duration token locked).exec eventId now h.db
      = .ok (claim, db)) (hr : r = .ok claim ∨ ∃ x, r = .error x) :
    React h (.repository (.claimNext workerId duration)) r db claim
  | write {op : DeploymentOp} {call : DeploymentCall} {eventId : ℕ} {now : Time}
    {db : DeploymentDb} (hb : Behind op call) (hexec : call.exec eventId now h.db = .ok (none, db))
    (r : Except Exc op.Ans) : React h (.repository op) r db none
  | purge (limit : ℕ) (diagnostics : List DiagnosticArtifactRow) (r : Except Exc Unit) :
    React h (.repository (.purgeExpiredDiagnostics limit)) r
      { h.db with diagnostics := diagnostics } none
  | outside {o : DeploymentWorkerOp} (ho : o.isOutside = true) (a : o.Ans) :
    React h o (.ok a) h.db none

/-- Workers of one configuration under names, beside whoever else uses the repository. -/
def rules (maxAttempts : ℕ) (retryBaseDelay : Time) :
    Pool.Rules ℕ WorkerHistory DeploymentWorkerOp DeploymentWorkerOp.Ans Exc Bool where
  step i h o r h' := ∃ claim, React h o r h'.db claim
    ∧ h'.issued = (claim.toList.map fun c ↦ (i, c)) ++ h.issued
    ∧ h'.log = h.log ++ [⟨h.db, o, r, h'.db⟩]
  spawn _ p := ∃ worker : DeploymentWorker, worker.maxAttempts = maxAttempts
    ∧ worker.retryBaseDelay = retryBaseDelay ∧ p = worker.runOnce
  die _ h h' := h' = h
  other h h' := h'.issued = h.issued ∧ h'.log = h.log
    ∧ ((∃ call eventId now, (∀ workerId duration token locked,
          call ≠ .claimNext workerId duration token locked)
        ∧ DeploymentCall.exec eventId now h.db call = .ok (none, h'.db))
      ∨ ∃ projects, h'.db = { h.db with projects := projects })

/-- Tables that no worker of this history has touched yet. -/
structure Initial (h : WorkerHistory) : Prop where
  consistent : h.db.Consistent
  issued : h.issued = []
  log : h.log = []

/-- The histories that workers reach. -/
def Reached (maxAttempts : ℕ) (retryBaseDelay : Time)
    (pool : Pool ℕ WorkerHistory DeploymentWorkerOp DeploymentWorkerOp.Ans Exc Bool) : Prop :=
  ∃ h₀, Initial h₀
    ∧ Relation.ReflTransGen (Pool.Step (rules maxAttempts retryBaseDelay)) ⟨h₀, []⟩ pool

/-! ## The tables -/

/-- How the tables move, and which claim is handed out. -/
inductive Moves (db : DeploymentDb) : Option DeploymentJobClaim → DeploymentDb → Prop
  | call {call : DeploymentCall} {eventId : ℕ} {now : Time} {claim : Option DeploymentJobClaim}
    {db' : DeploymentDb} (hexec : call.exec eventId now db = .ok (claim, db')) : Moves db claim db'
  | elsewhere (projects : Uuid → Option ProjectStatus) (diagnostics : List DiagnosticArtifactRow) :
    Moves db none { db with projects := projects, diagnostics := diagnostics }

namespace Moves

variable {db db' : DeploymentDb} {claim : Option DeploymentJobClaim}

theorem consistent (hm : Moves db claim db') (hdb : db.Consistent) : db'.Consistent := by
  cases hm with
  | call hexec => exact (DeploymentCall.exec_ok hdb hexec).consistent hdb
  | elsewhere => exact ⟨hdb.ids, hdb.exists_iff, hdb.agree, hdb.oneActive⟩

theorem countsUp (hm : Moves db claim db') (hdb : db.Consistent) : db.CountsUp db' := by
  cases hm with
  | call hexec => exact DeploymentCall.countsUp hdb hexec
  | elsewhere => exact .of_jobs rfl

theorem terminal (hm : Moves db claim db') (hdb : db.Consistent) {d : Uuid}
    (hd : db.Terminal d) : db'.Terminal d := by
  cases hm with
  | call hexec =>
    obtain ⟨old, hold, hended⟩ := hd
    rcases (DeploymentCall.exec_ok hdb hexec).ended hold hended with
      hsame | ⟨row, hrow, -, hstatus, -⟩
    · exact ⟨old, hsame, hended⟩
    · exact ⟨row, hrow, by rw [hstatus]; rfl⟩
  | elsewhere => exact hd

end Moves

variable {h h' : WorkerHistory} {o : DeploymentWorkerOp} {r : Except Exc o.Ans}
  {db : DeploymentDb} {claim : Option DeploymentJobClaim}

theorem React.moves (hr : React h o r db claim) : Moves h.db claim db := by
  cases hr with
  | raise => exact .elsewhere _ _
  | claimNext hfresh hexec hr => exact .call hexec
  | write hb hexec r => exact .call hexec
  | purge => exact .elsewhere _ _
  | outside => exact .elsewhere _ _

/-- A claim that is handed out has a fresh token and the next number of its job. -/
theorem React.handed (hr : React h o r db claim) (hdb : h.db.Consistent) {c : DeploymentJobClaim}
    (hc : claim = some c) : (∀ x ∈ h.issued, x.2.token ≠ c.token)
      ∧ ∃ job job', h.db.jobs.lookup c.deployment.id = some job ∧ c.attempts = job.attempts + 1
        ∧ db.jobs.lookup c.deployment.id = some job' ∧ job'.attempts = c.attempts := by
  cases hr with
  | claimNext hfresh hexec hr =>
    obtain ⟨htoken, hjobs⟩ := (DeploymentDb.claimNext_counts hdb hexec).2 c hc
    exact ⟨htoken ▸ hfresh, hjobs⟩
  | _ => cases hc

/-! ## The invariant -/

/-- What holds of every history. -/
structure Good (maxAttempts : ℕ) (retryBaseDelay : Time) (h : WorkerHistory) : Prop where
  consistent : h.db.Consistent
  /-- No token was drawn twice. -/
  tokens : (h.issued.map (·.2.token)).Nodup
  counted : ∀ x ∈ h.issued, 1 ≤ x.2.attempts
    ∧ ∃ job, h.db.jobs.lookup x.2.deployment.id = some job ∧ x.2.attempts ≤ job.attempts
  /-- The claims on a deployment have different numbers. -/
  distinct : ∀ x ∈ h.issued, ∀ y ∈ h.issued, x.2.deployment.id = y.2.deployment.id →
    x.2.attempts = y.2.attempts → x = y
  audited : Audited (Rule maxAttempts retryBaseDelay) [] h.log
  known : ∀ e ∈ h.log, ∀ c, e.op.claim? = some c → ∃ i, (i, c) ∈ h.issued
  once : (h.log.filterMap processes).Nodup

/-- What a worker relies on: its claims stay its own, and what has ended stays so. -/
structure Rely (i : ℕ) (h h' : WorkerHistory) : Prop where
  issued : h.issued ⊆ h'.issued
  log : ∃ t, h'.log = h.log ++ t ∧ ∀ e ∈ t, ∀ c, e.op.claim? = some c → (i, c) ∉ h.issued
  terminal : ∀ d, h.db.Terminal d → h'.db.Terminal d

/-- What a worker guarantees: it acts under its own claims, follows the rules, and processes once. -/
structure Guar (maxAttempts : ℕ) (retryBaseDelay : Time) (i : ℕ) (h : WorkerHistory)
    (o : DeploymentWorkerOp) (r : Except Exc o.Ans) (h' : WorkerHistory) : Prop where
  held : ∀ c, o.claim? = some c → (i, c) ∈ h.issued
  rule : Rule maxAttempts retryBaseDelay h.log ⟨h.db, o, r, h'.db⟩
  once : ∀ c, o = .process c → c ∉ h.log.filterMap processes

def proof (maxAttempts : ℕ) (retryBaseDelay : Time) :
    Pool.Proof ℕ WorkerHistory DeploymentWorkerOp DeploymentWorkerOp.Ans Exc where
  inv := Good maxAttempts retryBaseDelay
  rely := Rely
  guar := Guar maxAttempts retryBaseDelay
  idle _ _ := True

variable {maxAttempts : ℕ} {retryBaseDelay : Time} {i j : ℕ}

theorem Good.initial (hi : Initial h) : Good maxAttempts retryBaseDelay h := by
  refine ⟨hi.consistent, ?_, ?_, ?_, ?_, ?_, ?_⟩ <;> simp [hi.issued, hi.log, audited_nil]

/-- A claim belongs to one worker. -/
theorem Good.owner (hg : Good maxAttempts retryBaseDelay h) {c : DeploymentJobClaim}
    (hi : (i, c) ∈ h.issued) (hj : (j, c) ∈ h.issued) : i = j :=
  congrArg Prod.fst (hg.distinct _ hi _ hj rfl rfl)

theorem Rely.refl (i : ℕ) (h : WorkerHistory) : Rely i h h where
  issued := List.Subset.refl _
  log := ⟨[], by simp⟩
  terminal _ := id

theorem Rely.trans {h₁ h₂ h₃ : WorkerHistory} (h₁₂ : Rely i h₁ h₂) (h₂₃ : Rely i h₂ h₃) :
    Rely i h₁ h₃ := by
  obtain ⟨t₁, hlog₁, ht₁⟩ := h₁₂.log
  obtain ⟨t₂, hlog₂, ht₂⟩ := h₂₃.log
  refine ⟨List.Subset.trans h₁₂.issued h₂₃.issued, ⟨t₁ ++ t₂, ?_, fun e he c hc ↦ ?_⟩,
    fun d hd ↦ h₂₃.terminal d (h₁₂.terminal d hd)⟩
  · rw [hlog₂, hlog₁, List.append_assoc]
  · rcases List.mem_append.mp he with he | he
    · exact ht₁ e he c hc
    · exact fun hmem ↦ ht₂ e he c hc (h₁₂.issued hmem)

theorem processes_eq_some {e : WorkerEvent} {c : DeploymentJobClaim} :
    processes e = some c ↔ e.op = .process c := by
  unfold processes
  constructor
  · intro h
    split at h
    · cases h
      assumption
    · cases h
  · intro h
    rw [h]

theorem nodup_processed_concat {log : List WorkerEvent} {e : WorkerEvent}
    (hlog : (log.filterMap processes).Nodup)
    (he : ∀ c, e.op = .process c → c ∉ log.filterMap processes) :
    ((log ++ [e]).filterMap processes).Nodup := by
  rw [List.filterMap_append]
  cases hprocess : processes e with
  | none => simpa [hprocess] using hlog
  | some c =>
    have hnew := he c (processes_eq_some.mp hprocess)
    simp only [List.filterMap_cons, hprocess, List.filterMap_nil]
    exact List.nodup_append.mpr ⟨hlog, List.nodup_singleton c, fun a ha b hb heq ↦
      hnew (List.mem_singleton.mp hb ▸ heq ▸ ha)⟩

/-- The claims stay distinct and within the counters of their jobs. -/
theorem Good.issued (hg : Good maxAttempts retryBaseDelay h) (hr : React h o r db claim) :
    let issued := (claim.toList.map fun c ↦ (i, c)) ++ h.issued
    (issued.map (·.2.token)).Nodup
    ∧ (∀ x ∈ issued, 1 ≤ x.2.attempts
      ∧ ∃ job, db.jobs.lookup x.2.deployment.id = some job ∧ x.2.attempts ≤ job.attempts)
    ∧ ∀ x ∈ issued, ∀ y ∈ issued, x.2.deployment.id = y.2.deployment.id →
      x.2.attempts = y.2.attempts → x = y := by
  have hcounts := hr.moves.countsUp hg.consistent
  have hold : ∀ x ∈ h.issued, 1 ≤ x.2.attempts
      ∧ ∃ job, db.jobs.lookup x.2.deployment.id = some job ∧ x.2.attempts ≤ job.attempts := by
    intro x hx
    obtain ⟨hpos, job, hjob, hle⟩ := hg.counted x hx
    obtain ⟨job', hjob', hle'⟩ := hcounts _ job hjob
    exact ⟨hpos, job', hjob', hle.trans hle'⟩
  cases claim with
  | none => exact ⟨hg.tokens, hold, hg.distinct⟩
  | some c =>
    obtain ⟨hfresh, job, job', hjob, hnumber, hjob', hattempts⟩ := hr.handed hg.consistent rfl
    have hnew : ∀ x ∈ h.issued, x.2.deployment.id = c.deployment.id → x.2.attempts ≠ c.attempts := by
      intro x hx hid
      obtain ⟨-, job₁, hjob₁, hle⟩ := hg.counted x hx
      obtain rfl : job₁ = job := Option.some.inj (hjob₁.symm.trans (hid ▸ hjob))
      omega
    refine ⟨List.nodup_cons.mpr ⟨fun hmem ↦ ?_, hg.tokens⟩, ?_, ?_⟩
    · obtain ⟨x, hx, heq⟩ := List.mem_map.mp hmem
      exact hfresh x hx heq
    · have hpos : 1 ≤ c.attempts := by omega
      exact List.forall_mem_cons.mpr ⟨⟨hpos, job', hjob', hattempts.ge⟩, hold⟩
    · intro x hx y hy hid hnumbers
      rcases List.mem_cons.mp hx with rfl | hx <;> rcases List.mem_cons.mp hy with rfl | hy
      · rfl
      · exact absurd hnumbers.symm (hnew y hy hid.symm)
      · exact absurd hnumbers (hnew x hx hid)
      · exact hg.distinct x hx y hy hid hnumbers

/-- What a worker does keeps the invariant. -/
theorem Good.step (hg : Good maxAttempts retryBaseDelay h)
    (hs : (rules maxAttempts retryBaseDelay).step i h o r h')
    (hguar : Guar maxAttempts retryBaseDelay i h o r h') :
    Good maxAttempts retryBaseDelay h' := by
  obtain ⟨claim, hr, hissued, hlog⟩ := hs
  obtain ⟨htokens, hcounted, hdistinct⟩ := hg.issued (i := i) hr
  rw [← hissued] at htokens hcounted hdistinct
  have hknown : ∀ e ∈ h'.log, ∀ c, e.op.claim? = some c → ∃ i, (i, c) ∈ h'.issued := by
    intro e he c hc
    rw [hlog] at he
    rw [hissued]
    rcases List.mem_append.mp he with he | he
    · obtain ⟨j, hj⟩ := hg.known e he c hc
      exact ⟨j, List.mem_append_right _ hj⟩
    · obtain rfl := List.mem_singleton.mp he
      exact ⟨i, List.mem_append_right _ (hguar.held c hc)⟩
  refine ⟨hr.moves.consistent hg.consistent, htokens, hcounted, hdistinct, ?_, hknown, ?_⟩
  · rw [hlog]
    exact audited_concat.mpr ⟨hg.audited, hguar.rule⟩
  · rw [hlog]
    exact nodup_processed_concat hg.once hguar.once

/-- What a worker does leaves the claims of the others alone. -/
theorem Good.rely (hg : Good maxAttempts retryBaseDelay h)
    (hs : (rules maxAttempts retryBaseDelay).step i h o r h')
    (hguar : Guar maxAttempts retryBaseDelay i h o r h') (hj : j ≠ i) : Rely j h h' := by
  obtain ⟨claim, hr, hissued, hlog⟩ := hs
  refine ⟨?_, ⟨_, hlog, fun e he c hc hmem ↦ ?_⟩, fun d ↦ hr.moves.terminal hg.consistent⟩
  · rw [hissued]
    exact List.subset_append_right _ _
  · obtain rfl := List.mem_singleton.mp he
    exact hj (hg.owner hmem (hguar.held c hc))

/-- Whoever else uses the repository keeps the invariant and leaves the claims alone. -/
theorem Good.other (hg : Good maxAttempts retryBaseDelay h)
    (hs : (rules maxAttempts retryBaseDelay).other h h') :
    Good maxAttempts retryBaseDelay h' ∧ ∀ j, Rely j h h' := by
  obtain ⟨hissued, hlog, hdb⟩ := hs
  have hmoves : Moves h.db none h'.db := by
    rcases hdb with ⟨call, eventId, now, -, hexec⟩ | ⟨projects, hdb⟩
    · exact .call hexec
    · rw [hdb]
      exact .elsewhere _ _
  refine ⟨⟨hmoves.consistent hg.consistent, hissued ▸ hg.tokens, ?_, hissued ▸ hg.distinct,
    hlog ▸ hg.audited, ?_, hlog ▸ hg.once⟩, fun j ↦ ⟨?_, ⟨[], ?_⟩, fun d ↦ ?_⟩⟩
  · intro x hx
    obtain ⟨hpos, job, hjob, hle⟩ := hg.counted x (hissued ▸ hx)
    obtain ⟨job', hjob', hle'⟩ := hmoves.countsUp hg.consistent _ job hjob
    exact ⟨hpos, job', hjob', hle.trans hle'⟩
  · rw [hlog, hissued]
    exact hg.known
  · rw [hissued]
    exact List.Subset.refl _
  · simp [hlog]
  · exact hmoves.terminal hg.consistent

/-! ## One worker -/

/-- The setting of a worker. -/
abbrev setting (maxAttempts : ℕ) (retryBaseDelay : Time) (i : ℕ) :
    Setting WorkerHistory DeploymentWorkerOp DeploymentWorkerOp.Ans Exc :=
  (proof maxAttempts retryBaseDelay).setting (rules maxAttempts retryBaseDelay) i

/-- The worker has the claim, and everything done under it so far is in `P`. -/
structure Mine (i : ℕ) (c : DeploymentJobClaim) (P : WorkerEvent → Prop) (h : WorkerHistory) :
    Prop where
  held : (i, c) ∈ h.issued
  done : ∀ e ∈ h.log, e.op.claim? = some c → P e

/-- The worker has the claim. -/
abbrev Held (i : ℕ) (c : DeploymentJobClaim) : WorkerHistory → Prop := Mine i c fun _ ↦ True

/-- The failure of the claim could not be recorded. -/
def Spoiled (retryBaseDelay : Time) (c : DeploymentJobClaim) (h : WorkerHistory) : Prop :=
  ∃ e ∈ h.log, Spoils retryBaseDelay c e

/-- The worker may remove the candidate: recovery was not uncertain, or that could not be recorded. -/
def Cleared (retryBaseDelay : Time) (i : ℕ) (c : DeploymentJobClaim) (h : WorkerHistory) : Prop :=
  Held i c h ∧ (Recovered h.log c .uncertain → Spoiled retryBaseDelay c h)

/-- Being done with the claim would be in order. -/
def Ended (maxAttempts : ℕ) (c : DeploymentJobClaim) (h : WorkerHistory) : Prop :=
  maxAttempts < c.attempts → ClaimLost h.log c ∨ h.db.Terminal c.deployment.id

variable {c : DeploymentJobClaim} {P : WorkerEvent → Prop}

theorem Rely.mem_log (hr : Rely i h h') {e : WorkerEvent} (he : e ∈ h.log) : e ∈ h'.log := by
  obtain ⟨t, hlog, -⟩ := hr.log
  rw [hlog]
  exact List.mem_append_left _ he

/-- What others do under the claim of a worker is nothing. -/
theorem Rely.mem_of_mem (hr : Rely i h h') (hheld : (i, c) ∈ h.issued) {e : WorkerEvent}
    (he : e ∈ h'.log) (hc : e.op.claim? = some c) : e ∈ h.log := by
  obtain ⟨t, hlog, ht⟩ := hr.log
  rw [hlog] at he
  rcases List.mem_append.mp he with he | he
  · exact he
  · exact absurd hheld (ht e he c hc)

theorem Mine.rely (hm : Mine i c P h) (hr : Rely i h h') : Mine i c P h' :=
  ⟨hr.issued hm.held, fun e he hc ↦ hm.done e (hr.mem_of_mem hm.held he hc) hc⟩

theorem Spoiled.rely (hs : Spoiled retryBaseDelay c h) (hr : Rely i h h') :
    Spoiled retryBaseDelay c h' := by
  obtain ⟨e, he, hspoils⟩ := hs
  exact ⟨e, hr.mem_log he, hspoils⟩

theorem Cleared.rely (hc : Cleared retryBaseDelay i c h) (hr : Rely i h h') :
    Cleared retryBaseDelay i c h' := by
  refine ⟨hc.1.rely hr, fun ⟨pre, post, hmem⟩ ↦ (hc.2 ⟨pre, post, ?_⟩).rely hr⟩
  exact hr.mem_of_mem hc.1.held hmem rfl

theorem claimLost_rely (hl : ClaimLost h.log c) (hr : Rely i h h') : ClaimLost h'.log c := by
  obtain ⟨e, he, hclaim, hans⟩ := hl
  exact ⟨e, hr.mem_log he, hclaim, hans⟩

theorem Ended.rely (he : Ended maxAttempts c h) (hr : Rely i h h') : Ended maxAttempts c h' :=
  fun hattempts ↦ (he hattempts).imp (claimLost_rely · hr) (hr.terminal _)

/-! ### Steps of a worker -/

/-- What a worker's own step leaves behind. -/
structure Stepped (i : ℕ) (h : WorkerHistory) (o : DeploymentWorkerOp) (r : Except Exc o.Ans)
    (h' : WorkerHistory) (claim : Option DeploymentJobClaim) : Prop where
  react : React h o r h'.db claim
  issued : h'.issued = (claim.toList.map fun c ↦ (i, c)) ++ h.issued
  log : h'.log = h.log ++ [⟨h.db, o, r, h'.db⟩]

namespace Stepped

theorem mem_log (hs : Stepped i h o r h' claim) {e : WorkerEvent} :
    e ∈ h'.log ↔ e ∈ h.log ∨ e = ⟨h.db, o, r, h'.db⟩ := by
  rw [hs.log, List.mem_append, List.mem_singleton]

theorem mine (hs : Stepped i h o r h' claim) (hm : Mine i c P h)
    (hP : o.claim? = some c → P ⟨h.db, o, r, h'.db⟩) : Mine i c P h' := by
  refine ⟨?_, fun e he hc ↦ ?_⟩
  · rw [hs.issued]
    exact List.mem_append_right _ hm.held
  · rcases hs.mem_log.mp he with he | rfl
    · exact hm.done e he hc
    · exact hP hc

theorem cleared (hs : Stepped i h o r h' claim) (hc : Cleared retryBaseDelay i c h)
    (ho : o ≠ .recover c) : Cleared retryBaseDelay i c h' := by
  refine ⟨hs.mine hc.1 fun _ ↦ trivial, fun ⟨pre, post, hmem⟩ ↦ ?_⟩
  rcases hs.mem_log.mp hmem with hmem | heq
  · obtain ⟨e, he, hspoils⟩ := hc.2 ⟨pre, post, hmem⟩
    exact ⟨e, hs.mem_log.mpr (.inl he), hspoils⟩
  · exact absurd (congrArg Event.op heq).symm ho

theorem claimLost (hs : Stepped i h o r h' claim) (ho : o.claim? = some c)
    (hr : r = .error .deploymentClaimLost) : ClaimLost h'.log c :=
  ⟨_, hs.mem_log.mpr (.inr rfl), ho, hr⟩

end Stepped

/-- An operation that no rule restricts. -/
def isPlain : DeploymentWorkerOp → Bool
  | .process _ | .cleanupCandidate _ | .rollbackCandidate _ | .finished _ => false
  | _ => true

theorem rule_of_plain {before : List WorkerEvent} {e : WorkerEvent} (ho : isPlain e.op = true) :
    Rule maxAttempts retryBaseDelay before e := by
  constructor
  · intro c hc
    rw [hc] at ho
    cases ho
  · rintro c (hc | hc) <;>
    · rw [hc] at ho
      cases ho
  · intro c hc
    rw [hc] at ho
    cases ho

theorem guar_of_plain (hheld : ∀ c, o.claim? = some c → (i, c) ∈ h.issued)
    (ho : isPlain o = true) : Guar maxAttempts retryBaseDelay i h o r h' := by
  refine ⟨hheld, rule_of_plain ho, fun c hc ↦ ?_⟩
  rw [hc] at ho
  cases ho

/-- A worker may remove a candidate it has cleared. -/
theorem guar_of_cleared (hc : Cleared retryBaseDelay i c h)
    (ho : o = .cleanupCandidate c ∨ o = .rollbackCandidate c) :
    Guar maxAttempts retryBaseDelay i h o r h' := by
  have hclaim : ∀ c', o.claim? = some c' → c' = c := by
    rcases ho with rfl | rfl <;>
    · intro c' hc'
      exact (Option.some.inj hc').symm
  have hne : ∀ c', o ≠ .process c' ∧ o ≠ .finished c' := by
    rcases ho with rfl | rfl <;> simp
  refine ⟨fun c' hc' ↦ hclaim c' hc' ▸ hc.1.held, ⟨fun c' hc' ↦ absurd hc' (hne c').1,
    fun c' hc' ↦ ?_, fun c' hc' ↦ absurd hc' (hne c').2⟩, fun c' hc' ↦ absurd hc' (hne c').1⟩
  have hsome : o.claim? = some c' := by
    rcases hc' with hc' | hc' <;>
    · have hc' : o = _ := hc'
      rw [hc']
      rfl
  rw [hclaim c' hsome]
  exact hc.2

/-- One operation, from an assertion that others do not disturb. -/
theorem wp_perform {I : WorkerHistory → Prop} {Q : Except Exc o.Ans → WorkerHistory → Prop}
    (hI : ∀ h h', I h → Rely i h h' → I h') (hs : I h)
    (hstep : ∀ h₁ r h₂ claim, Good maxAttempts retryBaseDelay h₁ → I h₁ →
      Stepped i h₁ o r h₂ claim → Guar maxAttempts retryBaseDelay i h₁ o r h₂ ∧ Q r h₂) :
    wp (setting maxAttempts retryBaseDelay i) (DeploymentWorker.perform o) Q h := by
  rw [DeploymentWorker.perform, wp_op]
  rintro h₁ ⟨hg, hrely⟩ r h₂ ⟨claim, hreact, hissued, hlog⟩
  exact hstep h₁ r h₂ claim hg (hI h h₁ hs hrely) ⟨hreact, hissued, hlog⟩

theorem React.terminal_of_fail {stage code : String} {a : Deployment}
    (hr : React h (.repository (.fail c stage code)) (.ok a) db claim) :
    db.Terminal c.deployment.id := by
  cases hr with
  | write hb hexec =>
    cases hb
    obtain ⟨r, hr, heq⟩ := map_eq_ok hexec
    cases heq
    exact DeploymentDb.fail_terminal hr
  | outside ho => cases ho

theorem React.terminal_of_succeed {a : Deployment}
    (hr : React h (.repository (.succeed c)) (.ok a) db claim) :
    db.Terminal c.deployment.id := by
  cases hr with
  | write hb hexec =>
    cases hb
    obtain ⟨r, hr, heq⟩ := map_eq_ok hexec
    cases heq
    exact DeploymentDb.succeed_terminal hr
  | outside ho => cases ho

/-! ### The program of a worker -/

variable {worker : DeploymentWorker} {failure : RuntimeFailure}

/-- The setting of the worker at hand. -/
abbrev workerSetting (worker : DeploymentWorker) (i : ℕ) :
    Setting WorkerHistory DeploymentWorkerOp DeploymentWorkerOp.Ans Exc :=
  setting worker.maxAttempts worker.retryBaseDelay i

/-- How a part of `run_once` ends: done with the claim, or with an exception after which the candidate
may be removed. A lost claim is on record. -/
def Settled (worker : DeploymentWorker) (i : ℕ) (c : DeploymentJobClaim) :
    Except Exc Unit → WorkerHistory → Prop
  | .ok _, h => Held i c h ∧ Ended worker.maxAttempts c h
  | .error x, h => Cleared worker.retryBaseDelay i c h ∧ (x = .deploymentClaimLost → ClaimLost h.log c)

/-- What is left when a failure has not been recorded. -/
def Unrecorded (worker : DeploymentWorker) (i : ℕ) (c : DeploymentJobClaim) (x : Exc)
    (h : WorkerHistory) : Prop :=
  Held i c h ∧ (x = .deploymentClaimLost → ClaimLost h.log c)
    ∧ (x ≠ .deploymentClaimLost → Spoiled worker.retryBaseDelay c h)

theorem Unrecorded.cleared {x : Exc} (hu : Unrecorded worker i c x h)
    (hx : x ≠ .deploymentClaimLost) : Cleared worker.retryBaseDelay i c h :=
  ⟨hu.1, fun _ ↦ hu.2.2 hx⟩

/-- Recording a failure: it is recorded, or the claim is lost, or it is spoiled. -/
theorem wp_record {op : DeploymentOp} (hs : Held i c h) (hclaim : op.claim? = some c)
    (hended : ∀ h₁ a h₂ claim, React h₁ (.repository op) (.ok a) h₂.db claim →
      Ended worker.maxAttempts c h₂)
    (hspoils : ∀ pre post x, x ≠ .deploymentClaimLost → Spoils worker.retryBaseDelay c
      ⟨pre, .repository op, .error x, post⟩) :
    wp (workerSetting worker i) (do let _ ← DeploymentWorker.repository op) (fun r h' ↦
      match r with
      | .ok _ => Held i c h' ∧ Ended worker.maxAttempts c h'
      | .error x => Unrecorded worker i c x h') h := by
  rw [wp_bind]
  refine wp_perform (I := Held i c) (fun _ _ ↦ Mine.rely) hs fun h₁ r h₂ claim hg hs₁ hstep ↦ ⟨?_, ?_⟩
  · refine guar_of_plain (fun c' hc' ↦ ?_) rfl
    obtain rfl : c = c' := Option.some.inj (hclaim.symm.trans hc')
    exact hs₁.held
  · have hheld : Held i c h₂ := hstep.mine hs₁ fun _ ↦ trivial
    cases r with
    | ok a => exact ⟨hheld, hended h₁ a h₂ claim hstep.react⟩
    | error x =>
      refine ⟨hheld, fun hx ↦ ?_, fun hx ↦ ?_⟩
      · exact hstep.claimLost hclaim (by rw [hx])
      · exact ⟨_, hstep.mem_log.mpr (.inr rfl), hspoils _ _ x hx⟩

theorem wp_ignoreClaimLost {p : DeploymentPy Unit} (hp : wp (workerSetting worker i) p (fun r h' ↦
      match r with
      | .ok _ => Held i c h' ∧ Ended worker.maxAttempts c h'
      | .error x => Unrecorded worker i c x h') h) :
    wp (workerSetting worker i) (DeploymentWorker.ignoreClaimLost p) (Settled worker i c) h := by
  rw [DeploymentWorker.ignoreClaimLost, wp_tryCatch]
  refine wp_mono hp fun r h' hr ↦ ?_
  cases r with
  | ok a => exact hr
  | error x =>
    rw [orElse_error]
    split
    · exact ⟨hr.1, fun _ ↦ .inl (hr.2.1 rfl)⟩
    · rename_i hx
      exact ⟨hr.cleared hx, fun h ↦ absurd h hx⟩

theorem React.now_ok {x : Exc} : ¬React h (.now c) (.error x) db claim := by
  intro hr
  cases hr with
  | raise ho => cases ho

theorem wp_settle (hs : Held i c h) :
    wp (workerSetting worker i) (worker.settle c failure) (Settled worker i c) h := by
  refine wp_ignoreClaimLost ?_
  split
  · rename_i hretry
    rw [wp_bind]
    refine wp_perform (I := Held i c) (fun _ _ ↦ Mine.rely) hs
      fun h₁ r h₂ claim hg hs₁ hstep ↦ ⟨?_, ?_⟩
    · exact guar_of_plain (fun c' hc' ↦ Option.some.inj hc' ▸ hs₁.held) rfl
    have hheld : Held i c h₂ := hstep.mine hs₁ fun _ ↦ trivial
    cases r with
    | error x => exact absurd hstep.react React.now_ok
    | ok now =>
      rw [andThen_ok, wp_bind, addDelay]
      split
      · rename_i hoverflow
        refine ⟨hheld, nofun, fun _ ↦ ⟨_, hstep.mem_log.mpr (.inr rfl), ?_⟩⟩
        exact .overflow _ _ now hoverflow
      · refine wp_record hheld rfl (fun _ _ _ _ _ hattempts ↦ ?_)
          fun pre post x hx ↦ .retry pre post _ _ _ x hx
        exact absurd hretry.2 (by omega)
  · exact wp_record hs rfl (fun h₁ a h₂ claim hr _ ↦ .inr hr.terminal_of_fail)
      fun pre post x hx ↦ .fail pre post _ _ x hx

/-- An operation under the claim that no rule restricts keeps the candidate cleared, and a lost claim
is on record. -/
theorem tracks_plain (hclaim : o.claim? = some c) (ho : isPlain o = true) (hne : o ≠ .recover c) :
    (workerSetting worker i).Tracks (Cleared worker.retryBaseDelay i c)
      (fun h ↦ Cleared worker.retryBaseDelay i c h ∧ ClaimLost h.log c)
      (· ≠ .deploymentClaimLost) (· = .deploymentClaimLost) o := by
  rintro h h₁ r h₂ hs ⟨hg, hrely⟩ ⟨claim, hreact, hissued, hlog⟩
  have hstep : Stepped i h₁ o r h₂ claim := ⟨hreact, hissued, hlog⟩
  have hs₁ := hs.rely hrely
  refine ⟨guar_of_plain (fun c' hc' ↦ ?_) ho, ?_⟩
  · obtain rfl : c = c' := Option.some.inj (hclaim.symm.trans hc')
    exact hs₁.1.held
  · have hs₂ := hstep.cleared hs₁ hne
    cases r with
    | ok a => exact hs₂
    | error x =>
      by_cases hx : x = .deploymentClaimLost
      · exact .inr ⟨hx, hs₂, hstep.claimLost hclaim (by rw [hx])⟩
      · exact .inl ⟨hx, hs₂⟩

theorem tracks_heartbeat : Tracks (workerSetting worker i) (Cleared worker.retryBaseDelay i c)
    (fun h ↦ Cleared worker.retryBaseDelay i c h ∧ ClaimLost h.log c)
    (· ≠ .deploymentClaimLost) (· = .deploymentClaimLost) (worker.heartbeat c) :=
  (Tracks.op (tracks_plain rfl rfl (by simp))).bind fun _ ↦ .pure _

/-- The callback changes nothing about the claim. -/
theorem wp_onRuntimeReady {project : Uuid}
    (hs : Held i c h ∧ Ended worker.maxAttempts c h) :
    wp (workerSetting worker i)
      ((DeploymentWorker.perform (.onRuntimeReady project)).tryCatch fun _ ↦ .pure ())
      (Settled worker i c) h := by
  rw [wp_tryCatch]
  refine wp_perform (I := fun h ↦ Held i c h ∧ Ended worker.maxAttempts c h)
    (fun _ _ hs hr ↦ ⟨hs.1.rely hr, hs.2.rely hr⟩) hs fun h₁ r h₂ claim hg hs₁ hstep ↦ ⟨?_, ?_⟩
  · exact guar_of_plain (fun c' hc' ↦ by cases hc') rfl
  · have hs₂ : Held i c h₂ ∧ Ended worker.maxAttempts c h₂ := by
      refine ⟨hstep.mine hs₁.1 fun _ ↦ trivial, fun hattempts ↦ ?_⟩
      rcases hs₁.2 hattempts with ⟨e, he, hlost⟩ | hended
      · exact .inl ⟨e, hstep.mem_log.mpr (.inl he), hlost⟩
      · exact .inr (hstep.react.moves.terminal hg.consistent hended)
    cases r with
    | ok a => exact hs₂
    | error x => exact hs₂

theorem wp_succeed (hs : Cleared worker.retryBaseDelay i c h) :
    wp (workerSetting worker i) (worker.succeed c) (Settled worker i c) h := by
  rw [DeploymentWorker.succeed, wp_bind]
  refine wp_perform (I := Cleared worker.retryBaseDelay i c) (fun _ _ ↦ Cleared.rely) hs
    fun h₁ r h₂ claim hg hs₁ hstep ↦ ⟨?_, ?_⟩
  · exact guar_of_plain (fun c' hc' ↦ Option.some.inj hc' ▸ hs₁.1.held) rfl
  have hs₂ := hstep.cleared hs₁ (by simp)
  cases r with
  | error x => exact ⟨hs₂, fun hx ↦ hstep.claimLost rfl (by rw [hx])⟩
  | ok deployment =>
    have hended : Ended worker.maxAttempts c h₂ := fun _ ↦ .inr hstep.react.terminal_of_succeed
    rw [andThen_ok]
    split
    · exact wp_onRuntimeReady ⟨hs₂.1, hended⟩
    · exact ⟨hs₂.1, hended⟩

/-- A part that has been tracked, before one that settles the claim. -/
theorem wp_track_settle {p : DeploymentPy Unit} {q : Unit → DeploymentPy Unit}
    (hs : Cleared worker.retryBaseDelay i c h)
    (hp : Tracks (workerSetting worker i) (Cleared worker.retryBaseDelay i c)
      (fun h ↦ Cleared worker.retryBaseDelay i c h ∧ ClaimLost h.log c)
      (· ≠ .deploymentClaimLost) (· = .deploymentClaimLost) p)
    (hq : ∀ h', Cleared worker.retryBaseDelay i c h' →
      wp (workerSetting worker i) (q ()) (Settled worker i c) h') :
    wp (workerSetting worker i) (p >>= q) (Settled worker i c) h := by
  rw [wp_bind]
  refine wp_mono (hp h hs) fun r h' hr ↦ ?_
  cases r with
  | ok a => exact hq h' hr
  | error x =>
    rcases hr with ⟨hx, hcleared⟩ | ⟨hx, hcleared, hlost⟩
    · exact ⟨hcleared, fun h ↦ absurd h hx⟩
    · exact ⟨hcleared, fun _ ↦ hlost⟩

/-- Keeping diagnostics leaves the candidate cleared; it gives up only when the claim is lost. -/
theorem wp_keepDiagnostics (hs : Cleared worker.retryBaseDelay i c h) :
    wp (workerSetting worker i) (worker.keepDiagnostics c failure) (fun r h' ↦
      match r with
      | .ok goOn => Cleared worker.retryBaseDelay i c h' ∧ (goOn = false → ClaimLost h'.log c)
      | .error _ => False) h := by
  unfold DeploymentWorker.keepDiagnostics
  split
  · exact ⟨hs, fun h ↦ by cases h⟩
  rename_i retention _
  rw [wp_handle]
  refine wp_perform (I := Cleared worker.retryBaseDelay i c) (fun _ _ ↦ Cleared.rely) hs
    fun h₁ r h₂ claim hg hs₁ hstep ↦ ⟨guar_of_cleared hs₁ (.inr rfl), ?_⟩
  have hs₂ := hstep.cleared hs₁ (by simp)
  cases r with
  | error x => exact ⟨hs₂, fun h ↦ by cases h⟩
  | ok a =>
    rw [wp_handle]
    have hcapture : Tracks (workerSetting worker i) (Cleared worker.retryBaseDelay i c)
        (fun h ↦ Cleared worker.retryBaseDelay i c h ∧ ClaimLost h.log c)
        (· ≠ .deploymentClaimLost) (· = .deploymentClaimLost) (do
          let artifacts ← DeploymentWorker.perform (.captureDiagnostics c failure)
          DeploymentWorker.repository
            (.recordDiagnostics c failure.stage failure.code artifacts retention)) :=
      (Tracks.op (tracks_plain rfl rfl (by simp))).bind fun _ ↦
        Tracks.op (tracks_plain rfl rfl (by simp))
    refine wp_mono (hcapture h₂ hs₂) fun r h₃ hr ↦ ?_
    cases r with
    | ok a => exact ⟨hr, fun h ↦ by cases h⟩
    | error x =>
      rcases hr with ⟨hx, hcleared⟩ | ⟨rfl, hcleared, hlost⟩
      · split
        · exact ⟨hcleared, fun h ↦ by cases h⟩
        · rename_i heq
          exact absurd (Except.error.inj heq) hx
        · exact ⟨hcleared, fun h ↦ by cases h⟩
      · exact ⟨hcleared, fun _ ↦ hlost⟩

theorem wp_cleanUpAndSettle (hs : Cleared worker.retryBaseDelay i c h) :
    wp (workerSetting worker i) (worker.cleanUpAndSettle c failure) (Settled worker i c) h := by
  rw [DeploymentWorker.cleanUpAndSettle, wp_handle]
  refine wp_perform (I := Cleared worker.retryBaseDelay i c) (fun _ _ ↦ Cleared.rely) hs
    fun h₁ r h₂ claim hg hs₁ hstep ↦ ⟨guar_of_cleared hs₁ (.inl rfl), ?_⟩
  have hs₂ := hstep.cleared hs₁ (by simp)
  split
  · exact wp_settle hs₂.1
  · exact ⟨hs₂.1, fun _ ↦ .inl (hstep.claimLost rfl rfl)⟩
  · exact wp_settle hs₂.1

/-- A failure is settled: a candidate is touched only when it may be. -/
theorem wp_handleFailure (hs : Held i c h)
    (hcleared : failure.cleanupCandidate = true → Cleared worker.retryBaseDelay i c h) :
    wp (workerSetting worker i) (worker.handleFailure c failure) (Settled worker i c) h := by
  unfold DeploymentWorker.handleFailure
  split
  · rename_i hcleanup
    rw [wp_bind]
    refine wp_mono (wp_keepDiagnostics (hcleared hcleanup)) fun r h' hr ↦ ?_
    cases r with
    | error x => exact hr.elim
    | ok goOn =>
      rw [andThen_ok]
      split
      · exact wp_cleanUpAndSettle hr.1
      · rename_i hgoOn
        exact ⟨hr.1.1, fun _ ↦ .inl (hr.2 (by simpa using hgoOn))⟩
  · exact wp_settle hs

theorem cleared_of_mine {e : WorkerEvent} (hm : Mine i c (· = e) h)
    (he : ∀ pre post, e ≠ ⟨pre, .recover c, .ok .uncertain, post⟩) :
    Cleared retryBaseDelay i c h := by
  refine ⟨⟨hm.held, fun _ _ _ ↦ trivial⟩, fun ⟨pre, post, hmem⟩ ↦ ?_⟩
  exact absurd (hm.done _ hmem rfl).symm (he pre post)

/-- The worker may run the deployment. -/
structure Ready (worker : DeploymentWorker) (i : ℕ) (c : DeploymentJobClaim) (h : WorkerHistory) :
    Prop where
  cleared : Cleared worker.retryBaseDelay i c h
  unprocessed : Mine i c (fun e ↦ e.op ≠ .process c) h
  recovered : 1 < c.attempts → Recovered h.log c .safeToRetry
  attempts : c.attempts ≤ worker.maxAttempts

theorem Ready.rely (hs : Ready worker i c h) (hr : Rely i h h') : Ready worker i c h' where
  cleared := hs.cleared.rely hr
  unprocessed := hs.unprocessed.rely hr
  recovered hattempts := by
    obtain ⟨pre, post, hmem⟩ := hs.recovered hattempts
    exact ⟨pre, post, hr.mem_log hmem⟩
  attempts := hs.attempts

theorem Ready.guar (hs : Ready worker i c h) {r : Except Exc Unit} :
    Guar worker.maxAttempts worker.retryBaseDelay i h (.process c) r h' := by
  refine ⟨fun c' hc' ↦ ?_, ⟨fun c' hc' ↦ ?_, fun c' hc' ↦ ?_, fun c' hc' ↦ ?_⟩, fun c' hc' ↦ ?_⟩
  · cases hc'
    exact hs.cleared.1.held
  · cases hc'
    exact ⟨hs.attempts, hs.recovered⟩
  · rcases hc' with hc' | hc' <;> cases hc'
  · cases hc'
  · cases hc'
    intro hmem
    obtain ⟨e, he, hprocess⟩ := List.mem_filterMap.mp hmem
    have hop := processes_eq_some.mp hprocess
    exact hs.unprocessed.done e he (by rw [hop]; rfl) hop

theorem wp_runDeployment (hs : Ready worker i c h) :
    wp (workerSetting worker i) (worker.runDeployment c) (Settled worker i c) h := by
  rw [DeploymentWorker.runDeployment, wp_bind]
  refine wp_perform (I := Ready worker i c) (fun _ _ ↦ Ready.rely) hs
    fun h₁ r h₂ claim hg hs₁ hstep ↦ ⟨hs₁.guar, ?_⟩
  have hs₂ := hstep.cleared hs₁.cleared (by simp)
  cases r with
  | error x => exact ⟨hs₂, fun hx ↦ hstep.claimLost rfl (by rw [hx])⟩
  | ok a => exact wp_track_settle hs₂ tracks_heartbeat fun h' ↦ wp_succeed

/-- Nothing has been done under the claim. -/
abbrev Fresh (i : ℕ) (c : DeploymentJobClaim) : WorkerHistory → Prop := Mine i c fun _ ↦ False

/-- The body of the `try` statement. -/
theorem wp_runClaim (hs : Fresh i c h) :
    wp (workerSetting worker i) (worker.runClaim c) (Settled worker i c) h := by
  unfold DeploymentWorker.runClaim
  split
  · rw [wp_bind]
    refine wp_perform (I := Fresh i c) (fun _ _ ↦ Mine.rely) hs
      fun h₁ r h₂ claim hg hs₁ hstep ↦ ⟨?_, ?_⟩
    · exact guar_of_plain (fun c' hc' ↦ Option.some.inj hc' ▸ hs₁.held) rfl
    -- What is on record under the claim is this one look at the candidate.
    have honly : Mine i c (· = ⟨h₁.db, .recover c, r, h₂.db⟩) h₂ :=
      hstep.mine ⟨hs₁.held, fun e he hc ↦ (hs₁.done e he hc).elim⟩ fun _ ↦ rfl
    have hcleared : r ≠ .ok .uncertain → Cleared worker.retryBaseDelay i c h₂ := by
      refine fun hr ↦ cleared_of_mine honly fun pre post heq ↦ hr ?_
      simp only [Event.mk.injEq, heq_eq_eq, true_and] at heq
      exact heq.2.1
    cases r with
    | error x => exact ⟨hcleared (by simp), fun hx ↦ hstep.claimLost rfl (by rw [hx])⟩
    | ok disposition =>
      rw [andThen_ok]
      cases disposition with
      | active => exact wp_track_settle (hcleared (by simp)) tracks_heartbeat fun h' ↦ wp_succeed
      | uncertain => exact wp_handleFailure ⟨honly.held, fun _ _ _ ↦ trivial⟩ nofun
      | safeToRetry =>
        have hready := hcleared (by simp)
        change wp _ (if worker.maxAttempts < c.attempts then _ else _) _ _
        split
        · exact wp_handleFailure hready.1 fun _ ↦ hready
        · rename_i hattempts
          refine wp_runDeployment ⟨hready, ⟨honly.held, ?_⟩, fun _ ↦ ?_, Nat.le_of_not_lt hattempts⟩
          · intro e he hc
            rw [honly.done e he hc]
            simp
          · exact ⟨_, _, hstep.mem_log.mpr (.inr rfl)⟩
  · rename_i hattempts
    have hpos := worker.maxAttempts_pos
    refine wp_runDeployment ⟨⟨⟨hs.held, fun _ _ _ ↦ trivial⟩, fun ⟨pre, post, hmem⟩ ↦ ?_⟩,
      ⟨hs.held, fun e he hc ↦ (hs.done e he hc).elim⟩, fun h ↦ absurd h hattempts, by omega⟩
    exact (hs.done _ hmem rfl).elim

theorem wp_settleException {x : Exc} (hs : Cleared worker.retryBaseDelay i c h)
    (hx : x = .deploymentClaimLost → ClaimLost h.log c) :
    wp (workerSetting worker i) (worker.settleException c x) (Settled worker i c) h := by
  unfold DeploymentWorker.settleException
  split
  · exact ⟨hs.1, fun _ ↦ .inl (hx rfl)⟩
  · exact wp_handleFailure hs.1 fun _ ↦ hs
  · exact wp_handleFailure hs.1 fun _ ↦ hs

theorem React.claimNext_ok {workerId : String} {duration : Time} {r : Option DeploymentJobClaim}
    (hr : React h (.repository (.claimNext workerId duration)) (.ok r) db claim) : claim = r := by
  cases hr with
  | claimNext hfresh hexec hr =>
    rcases hr with hr | ⟨x, hr⟩
    · exact (Except.ok.inj hr).symm
    · cases hr
  | write hb => cases hb
  | outside ho => cases ho

/-- A claim that was handed out is fresh. -/
theorem Stepped.fresh {workerId : String} {duration : Time} (hg : Good maxAttempts retryBaseDelay h)
    (hs : Stepped i h (.repository (.claimNext workerId duration)) (.ok (some c)) h' claim) :
    Fresh i c h' := by
  obtain rfl := hs.react.claimNext_ok
  obtain ⟨hfresh, -⟩ := hs.react.handed hg.consistent rfl
  refine ⟨by simp [hs.issued], fun e he hc ↦ ?_⟩
  rcases hs.mem_log.mp he with he | rfl
  · obtain ⟨j, hj⟩ := hg.known e he c hc
    exact hfresh _ hj rfl
  · cases hc

theorem guar_finished (hs : Held i c h) (he : Ended maxAttempts c h) {r : Except Exc Unit} :
    Guar maxAttempts retryBaseDelay i h (.finished c) r h' := by
  refine ⟨fun c' hc' ↦ ?_, ⟨fun c' hc' ↦ ?_, fun c' hc' ↦ ?_, fun c' hc' ↦ ?_⟩, fun c' hc' ↦ ?_⟩
  · cases hc'
    exact hs.held
  · cases hc'
  · rcases hc' with hc' | hc' <;> cases hc'
  · cases hc'
    exact he
  · cases hc'

/-- **A run of a worker follows the rules.** -/
theorem wp_runOnce (worker : DeploymentWorker) (i : ℕ) (h : WorkerHistory) :
    wp (workerSetting worker i) worker.runOnce (fun _ _ ↦ True) h := by
  rw [DeploymentWorker.runOnce, wp_bind]
  refine wp_perform (I := fun _ ↦ True) (fun _ _ _ _ ↦ trivial) trivial
    fun h₁ r h₂ claim hg _ hstep ↦ ⟨guar_of_plain nofun rfl, ?_⟩
  cases r with
  | error x => trivial
  | ok claimed =>
    cases claimed with
    | none =>
      refine Preserves.of_uses (I := fun _ ↦ True) ?_ _ trivial
      have hpurge : ∀ limit, (workerSetting worker i).Keeps (fun _ ↦ True)
          (.repository (.purgeExpiredDiagnostics limit)) :=
        fun _ _ _ _ _ _ _ _ ↦ ⟨guar_of_plain nofun rfl, trivial⟩
      dsimp only
      split
      · exact ((Prog.uses_op.mpr (hpurge 100)).tryCatch fun _ ↦ Prog.uses_pure _).bind
          fun _ ↦ Prog.uses_pure _
      · exact Prog.uses_pure _
    | some c =>
      have hsettled : wp (workerSetting worker i)
          ((worker.runClaim c).tryCatch (worker.settleException c)) (Settled worker i c) h₂ := by
        rw [wp_tryCatch]
        refine wp_mono (wp_runClaim (hstep.fresh hg)) fun r h₃ hr ↦ ?_
        cases r with
        | ok a => exact hr
        | error x => exact wp_settleException hr.1 hr.2
      rw [andThen_ok, wp_bind]
      refine wp_mono hsettled fun r h₃ hr ↦ ?_
      cases r with
      | error x => trivial
      | ok a =>
        rw [andThen_ok, wp_bind]
        refine wp_perform (I := fun h ↦ Held i c h ∧ Ended worker.maxAttempts c h)
          (fun _ _ hs hr ↦ ⟨hs.1.rely hr, hs.2.rely hr⟩) hr
          fun h₄ r h₅ claim hg hs hstep ↦ ⟨guar_finished hs.1 hs.2, ?_⟩
        cases r <;> trivial

/-! ## All workers -/

theorem proof_valid (maxAttempts : ℕ) (retryBaseDelay : Time) :
    (proof maxAttempts retryBaseDelay).Valid (rules maxAttempts retryBaseDelay) where
  refl := Rely.refl
  trans i h₁ h₂ h₃ := Rely.trans
  idle _ _ _ _ _ := trivial
  spawn i p h hspawn _ _ := by
    obtain ⟨worker, rfl, rfl, rfl⟩ := hspawn
    exact wp_runOnce worker i h
  run i h o r h' hg hstep hguar := ⟨hg.step hstep hguar, fun j hj ↦ hg.rely hstep hguar hj⟩
  die i h h' hg hdie := by
    obtain rfl := hdie
    exact ⟨hg, trivial, fun j _ ↦ Rely.refl j h'⟩
  other h h' hg hother := hg.other hother

theorem Reached.good {pool : Pool ℕ WorkerHistory DeploymentWorkerOp DeploymentWorkerOp.Ans Exc Bool}
    (hr : Reached maxAttempts retryBaseDelay pool) :
    Good maxAttempts retryBaseDelay pool.state := by
  obtain ⟨h₀, hinit, hsteps⟩ := hr
  have hsound : Pool.Sound (proof maxAttempts retryBaseDelay) (rules maxAttempts retryBaseDelay)
      ⟨h₀, []⟩ := .initial (Good.initial hinit) fun _ ↦ trivial
  exact (hsound.steps (proof_valid maxAttempts retryBaseDelay) hsteps).inv

/-- The deployment has been processed under claims with different numbers, none beyond the last
attempt. -/
theorem Good.processed_le (hg : Good maxAttempts retryBaseDelay h) (d : Uuid) :
    (processed h.log d).length ≤ maxAttempts := by
  have hissued : ∀ c ∈ processed h.log d, c.deployment.id = d ∧ (∃ i, (i, c) ∈ h.issued)
      ∧ c.attempts ≤ maxAttempts := by
    intro c hc
    obtain ⟨hc, hd⟩ := List.mem_filter.mp hc
    obtain ⟨e, he, hprocess⟩ := List.mem_filterMap.mp hc
    have hop := processes_eq_some.mp hprocess
    obtain ⟨before, after, hlog⟩ := List.append_of_mem he
    refine ⟨by simpa using hd, hg.known e he c (by rw [hop]; rfl), ?_⟩
    exact ((hg.audited before e after hlog).process c hop).1
  have hnodup : ((processed h.log d).map DeploymentJobClaim.attempts).Nodup := by
    refine (hg.once.filter _).map_on fun a ha b hb heq ↦ ?_
    obtain ⟨hda, ⟨i, hi⟩, -⟩ := hissued a ha
    obtain ⟨hdb, ⟨j, hj⟩, -⟩ := hissued b hb
    exact congrArg Prod.snd (hg.distinct _ hi _ hj (hda.trans hdb.symm) heq)
  have hrange : ((processed h.log d).map DeploymentJobClaim.attempts).toFinset
      ⊆ Finset.Icc 1 maxAttempts := by
    intro n hn
    obtain ⟨c, hc, rfl⟩ := List.mem_map.mp (List.mem_toFinset.mp hn)
    obtain ⟨-, ⟨i, hi⟩, hle⟩ := hissued c hc
    exact Finset.mem_Icc.mpr ⟨(hg.counted _ hi).1, hle⟩
  have hcard := Finset.card_le_card hrange
  rwa [List.toFinset_card_of_nodup hnodup, List.length_map, Nat.card_Icc,
    Nat.add_sub_cancel] at hcard

/-- **Attempts, recovery and preservation.** In every history in which whatever recovery left
uncertain could be recorded, a deployment is processed no more often than `maxAttempts`; after the
first claim only when recovery has said under the same claim that it is safe; an uncertain candidate is
neither rolled back nor removed; and a claim beyond the last attempt ends the deployment unless it is
lost. -/
theorem reached_disciplined
    {pool : Pool ℕ WorkerHistory DeploymentWorkerOp DeploymentWorkerOp.Ans Exc Bool}
    (hr : Reached maxAttempts retryBaseDelay pool)
    (hrecordable : Recordable retryBaseDelay pool.state.log) :
    Disciplined maxAttempts pool.state.log := by
  have hg := hr.good
  refine ⟨hg.processed_le, fun before e after c hlog hop hattempts ↦ ?_,
    fun before e after c hlog hop huncertain ↦ ?_, fun before e after c hlog hop hattempts ↦ ?_⟩
  · exact ((hg.audited before e after hlog).process c hop).2 hattempts
  · obtain ⟨e', he', hspoils⟩ := (hg.audited before e after hlog).cleanup c hop huncertain
    obtain ⟨pre, post, hmem⟩ := huncertain
    refine hrecordable c ⟨pre, post, ?_⟩ e' ?_ hspoils
    · rw [hlog]
      exact List.mem_append_left _ hmem
    · rw [hlog]
      exact List.mem_append_left _ he'
  · exact (hg.audited before e after hlog).finished c hop hattempts

/-! ## Two runs -/

/-- A deployment whose workers have crashed. -/
def crashedDeployment : Deployment where
  id := .ofNat 1
  projectId := .ofNat 2
  sourceType := .mainHead
  requestedCommitSha := none
  resolvedCommitSha := "0123456789012345678901234567890123456789"
  configVersion := 1
  configSnapshot := .null
  status := .preparing
  createdAt := 0
  updatedAt := 0

/-- Its tables after a number of attempts; the lease of the last one has run out. -/
def crashedTables (attempts : ℕ) : DeploymentDb where
  projects _ := some .ready
  deployments := (∅ : AList fun _ : Uuid ↦ Deployment).insert (.ofNat 1) crashedDeployment
  jobs := (∅ : AList fun _ : Uuid ↦ DeploymentJobRow).insert (.ofNat 1) {
    state := .claimed
    attempts := attempts
    availableAt := 0
    leaseOwner := some "crashed"
    leaseExpiresAt := some 1
    claimToken := some (.ofNat 9)
    createdAt := 0
    updatedAt := 0 }
  events := []
  diagnostics := []

theorem crashedTables_consistent (attempts : ℕ) : (crashedTables attempts).Consistent := by
  have hrow : ∀ d row, (crashedTables attempts).deployments.lookup d = some row →
      d = .ofNat 1 ∧ row = crashedDeployment := by
    intro d row h
    rw [crashedTables, lookup_insert'] at h
    split_ifs at h with hd
    · exact ⟨hd, (Option.some.inj h).symm⟩
    · simp at h
  constructor
  · intro d row h
    obtain ⟨rfl, rfl⟩ := hrow d row h
    rfl
  · intro d
    simp only [crashedTables, lookup_insert']
    split_ifs <;> simp
  · intro d row job h hjob
    obtain ⟨rfl, rfl⟩ := hrow d row h
    simp only [crashedTables, lookup_insert', if_true, Option.some.injEq] at hjob
    subst hjob
    constructor <;> simp [crashedDeployment]
  · intro d e a b ha hb _ _ _
    exact (hrow d a ha).1.trans (hrow e b hb).1.symm

/-- The claim that comes next. -/
def nextClaim (attempts : ℕ) : DeploymentJobClaim where
  deployment := { crashedDeployment with updatedAt := 2 }
  token := .ofNat 3
  workerId := "worker"
  attempts := attempts + 1
  leaseExpiresAt := 12

/-- After a crash, recovery says that it is safe, and the deployment is processed. -/
theorem reached_disciplined_sample : ∃ pool, Reached 3 5000000 pool
    ∧ processed pool.state.log (.ofNat 1) = [nextClaim 1] ∧ Disciplined 3 pool.state.log := by
  let worker : DeploymentWorker :=
    { workerId := "worker", leaseDuration := 10, maxAttempts_pos := by decide }
  obtain ⟨db, hexec⟩ : ∃ db, (DeploymentCall.claimNext "worker" 10 (.ofNat 3)
      fun _ ↦ false).exec 1 2 (crashedTables 1) = .ok (some (nextClaim 1), db) := ⟨_, rfl⟩
  let log : List WorkerEvent :=
    [⟨crashedTables 1, .repository (.claimNext "worker" 10), .ok (some (nextClaim 1)), db⟩,
      ⟨db, .recover (nextClaim 1), .ok .safeToRetry, db⟩, ⟨db, .process (nextClaim 1), .ok (), db⟩]
  let after (n : ℕ) : WorkerHistory := ⟨db, [(0, nextClaim 1)], log.take n⟩
  have hclaim : (rules 3 5000000).step 0 ⟨crashedTables 1, [], []⟩
      (.repository (.claimNext "worker" 10)) (.ok (some (nextClaim 1))) (after 1) :=
    ⟨some (nextClaim 1), .claimNext nofun hexec (.inl rfl), rfl, rfl⟩
  have hrecover : (rules 3 5000000).step 0 (after 1) (.recover (nextClaim 1)) (.ok .safeToRetry)
      (after 2) := ⟨none, .outside rfl _, rfl, rfl⟩
  have hprocess : (rules 3 5000000).step 0 (after 2) (.process (nextClaim 1)) (.ok ())
      (after 3) := ⟨none, .outside rfl _, rfl, rfl⟩
  obtain ⟨t, p', htrace⟩ : ∃ t p', Trace ((rules 3 5000000).step 0) worker.runOnce
      ⟨crashedTables 1, [], []⟩ t p' (after 3) :=
    ⟨_, _, .cons hclaim (.cons hrecover (.cons hprocess (.nil _ _)))⟩
  have hreached : Reached 3 5000000 ⟨after 3, [(0, p')]⟩ := by
    refine ⟨⟨crashedTables 1, [], []⟩, ⟨crashedTables_consistent 1, rfl, rfl⟩, ?_⟩
    exact .head (.spawn _ [] 0 worker.runOnce (by simp) ⟨worker, rfl, rfl, rfl⟩)
      (Pool.steps_of_trace htrace [] [])
  refine ⟨_, hreached, rfl, reached_disciplined hreached fun c ⟨pre, post, hmem⟩ ↦ ?_⟩
  have hmem : (⟨pre, .recover c, .ok .uncertain, post⟩ : WorkerEvent) ∈ log := hmem
  simp [log] at hmem

/-- A worker that makes up to 38 attempts. -/
def patientWorker : DeploymentWorker where
  workerId := "worker"
  leaseDuration := 10
  maxAttempts := 38
  maxAttempts_pos := by decide

/-- After 36 crashes, recovery is uncertain, the time of the next attempt is beyond the end of the
calendar, and the candidate is removed. -/
theorem patientWorker_run : ∃ db t p' after,
    Trace ((rules 38 5000000).step 0) patientWorker.runOnce ⟨crashedTables 36, [], []⟩ t p' after
      ∧ after.log = [⟨crashedTables 36, .repository (.claimNext "worker" 10),
          .ok (some (nextClaim 36)), db⟩,
        ⟨db, .recover (nextClaim 36), .ok .uncertain, db⟩,
        ⟨db, .now (nextClaim 36), .ok 1790000000000000, db⟩,
        ⟨db, .cleanupCandidate (nextClaim 36), .ok (), db⟩] := by
  obtain ⟨db, hexec⟩ : ∃ db, (DeploymentCall.claimNext "worker" 10 (.ofNat 3)
      fun _ ↦ false).exec 1 2 (crashedTables 36) = .ok (some (nextClaim 36), db) := ⟨_, rfl⟩
  let log : List WorkerEvent :=
    [⟨crashedTables 36, .repository (.claimNext "worker" 10), .ok (some (nextClaim 36)), db⟩,
      ⟨db, .recover (nextClaim 36), .ok .uncertain, db⟩,
      ⟨db, .now (nextClaim 36), .ok 1790000000000000, db⟩,
      ⟨db, .cleanupCandidate (nextClaim 36), .ok (), db⟩]
  let after (n : ℕ) : WorkerHistory := ⟨db, [(0, nextClaim 36)], log.take n⟩
  have hclaim : (rules 38 5000000).step 0 ⟨crashedTables 36, [], []⟩
      (.repository (.claimNext "worker" 10)) (.ok (some (nextClaim 36))) (after 1) :=
    ⟨some (nextClaim 36), .claimNext nofun hexec (.inl rfl), rfl, rfl⟩
  have hrecover : (rules 38 5000000).step 0 (after 1) (.recover (nextClaim 36)) (.ok .uncertain)
      (after 2) := ⟨none, .outside rfl _, rfl, rfl⟩
  have hnow : (rules 38 5000000).step 0 (after 2) (.now (nextClaim 36)) (.ok 1790000000000000)
      (after 3) := ⟨none, .outside rfl _, rfl, rfl⟩
  have hcleanup : (rules 38 5000000).step 0 (after 3) (.cleanupCandidate (nextClaim 36)) (.ok ())
      (after 4) := ⟨none, .outside rfl _, rfl, rfl⟩
  exact ⟨db, _, _, after 4, .cons hclaim (.cons hrecover (.cons hnow (.cons hcleanup (.nil _ _)))),
    rfl⟩

/-- A history in which an uncertain candidate is removed. -/
theorem reached_not_disciplined : ∃ pool, Reached 38 5000000 pool
    ∧ ¬Disciplined 38 pool.state.log := by
  obtain ⟨db, t, p', after, htrace, hlog⟩ := patientWorker_run
  refine ⟨⟨after, [(0, p')]⟩, ⟨⟨crashedTables 36, [], []⟩,
    ⟨crashedTables_consistent 36, rfl, rfl⟩, ?_⟩, fun hd ↦ ?_⟩
  · exact .head (.spawn _ [] 0 patientWorker.runOnce (by simp) ⟨patientWorker, rfl, rfl, rfl⟩)
      (Pool.steps_of_trace htrace [] [])
  · exact hd.preserved [_, _, _] _ [] (nextClaim 36) hlog (.inl rfl) ⟨db, db, by simp⟩

end WorkerHistory

end Heimdall
