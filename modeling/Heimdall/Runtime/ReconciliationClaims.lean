import Heimdall.Effect.Pool
import Heimdall.Runtime.ReconciliationRows
import Heimdall.Runtime.ReconciliationWorker
import Heimdall.Sessions

/-!
# Claims on reconciliations

The database with the claims on reconciliations that were handed out, latest first. Every token is
fresh, so a row that is claimed carries the token of the latest claim on its deployment, and an
operation under another claim, or one whose lease has run out, is refused.

A reconciliation that ends with `ACTIVE` belongs to a deployment that has succeeded. The two rows are
written by two transactions: the worker first settles the deployment and then the reconciliation, and
in between the deployment stays as it is while the claim is live (`ReconciliationHistory.Sealed`).
-/

namespace Heimdall

open Effect

/-- The deployment has succeeded. -/
def Database.Succeeded (db : Database) (d : Uuid) : Prop :=
  ∃ row, db.deployments.lookup d = some row ∧ row.status = .succeeded

namespace ReconciliationCall

/-- The token a call draws. -/
def token? : ReconciliationCall → Option Uuid
  | .claimNext _ _ token _ => some token
  | _ => none

variable {now : Time} {db db' : ReconciliationDb} {claim : Option RuntimeReconciliationClaim}
  {call : ReconciliationCall}

/-- A row that is claimed was claimed before, with the same token, or is handed out by the call. -/
theorem Commits.claimed (h : Commits now db call claim db') {d : Uuid}
    {row : RuntimeReconciliationRow} (hrow : db'.reconciliations.lookup d = some row)
    (hstate : row.state = .claimed) :
    (∃ old, db.reconciliations.lookup d = some old ∧ old.state = .claimed
        ∧ row.claimToken = old.claimToken
        ∧ ∀ c, claim = some c → c.reconciliation.deploymentId ≠ d)
      ∨ ∃ c, claim = some c ∧ c.reconciliation.deploymentId = d
        ∧ row.claimToken = some c.token ∧ call.token? = some c.token := by
  cases h with
  | idle => exact .inl ⟨row, hrow, hstate, rfl, fun _ hc ↦ nomatch hc⟩
  | @request e action requestedBy new hlive hfree hdeployment hpending =>
    rw [lookup_insert'] at hrow
    split_ifs at hrow
    · cases hrow
      rw [hpending] at hstate
      cases hstate
    · exact .inl ⟨row, hrow, hstate, rfl, fun _ hc ↦ nomatch hc⟩
  | schedule hframe hrows =>
    rcases hrows d with hsame | ⟨-, -, -, new, hnew, hpending, -⟩
    · exact .inl ⟨row, hsame ▸ hrow, hstate, rfl, fun _ hc ↦ nomatch hc⟩
    · cases hnew.symm.trans hrow
      rw [hpending] at hstate
      cases hstate
  | @claimNext workerId duration token locked c e old new hold hdue hclaimed hresult htoken hclaim =>
    rw [lookup_insert'] at hrow
    split_ifs at hrow with hd
    · cases hrow
      exact .inr ⟨c, rfl, hclaim.1.trans hd.symm, htoken.trans (by rw [hclaim.2.1]),
        by rw [token?, hclaim.2.1]⟩
    · refine .inl ⟨row, hrow, hstate, rfl, fun c' hc' ↦ ?_⟩
      rw [← Option.some.inj hc', hclaim.1]
      exact Ne.symm hd
  | @move call c old new hclaim hold hheld hmoves =>
    rw [lookup_insert'] at hrow
    split_ifs at hrow with hd
    · cases hrow
      cases hmoves with
      | renew _ _ htoken =>
        exact .inl ⟨old, hd ▸ hold, (ReconciliationDb.holdsClaim_iff.mp hheld).1, htoken,
          fun _ hc ↦ nomatch hc⟩
      | resolve _ hresolved =>
        rw [hresolved] at hstate
        cases hstate
      | block hblocked =>
        rw [hblocked] at hstate
        cases hstate
      | retry hpending =>
        rw [hpending] at hstate
        cases hstate
    · exact .inl ⟨row, hrow, hstate, rfl, fun _ hc ↦ nomatch hc⟩

/-- What a reconciliation that is in a state has as its result. -/
structure Settled (db : Database) (d : Uuid) (row : RuntimeReconciliationRow) : Prop where
  resolved : row.state = .resolved → row.result = some .active ∨ row.result = some .cleaned
  blocked : row.state = .blocked → row.result = some .uncertain
  waiting : row.state = .pending ∨ row.state = .claimed → row.result = none
  active : row.state = .resolved → row.result = some .active → db.Succeeded d

theorem Settled.of_pending {tables : Database} {d : Uuid} {row : RuntimeReconciliationRow}
    (hstate : row.state = .pending) (hresult : row.result = none) : Settled tables d row := by
  constructor <;> intro h <;> simp_all

theorem Settled.mono {tables tables' : Database} {d : Uuid} {row : RuntimeReconciliationRow}
    (h : Settled tables d row) (hsucceeded : tables.Succeeded d → tables'.Succeeded d) :
    Settled tables' d row :=
  ⟨h.resolved, h.blocked, h.waiting, fun hstate hresult ↦ hsucceeded (h.active hstate hresult)⟩

/-- A commit leaves every row with a result that fits its state, provided that only a deployment that
has succeeded is resolved as active. -/
theorem Commits.settled (h : Commits now db call claim db') {tables : Database}
    (hdb : ∀ d row, db.reconciliations.lookup d = some row → Settled tables d row)
    (hactive : ∀ c code row, call = .resolve c .active code →
      db.reconciliations.lookup c.reconciliation.deploymentId = some row → row.state = .claimed →
      row.claimToken = some c.token → tables.Succeeded c.reconciliation.deploymentId) {d : Uuid}
    {row : RuntimeReconciliationRow} (hrow : db'.reconciliations.lookup d = some row) :
    Settled tables d row := by
  cases h with
  | idle => exact hdb d row hrow
  | @request e action requestedBy new hlive hfree hdeployment hstate hresult =>
    rw [lookup_insert'] at hrow
    split_ifs at hrow
    · cases hrow
      exact .of_pending hstate hresult
    · exact hdb d row hrow
  | schedule hframe hrows =>
    rcases hrows d with hsame | ⟨-, -, -, new, hnew, hstate, hresult, -⟩
    · exact hdb d row (hsame ▸ hrow)
    · cases hnew.symm.trans hrow
      exact .of_pending hstate hresult
  | @claimNext workerId duration token locked c e old new hold hdue hstate hresult =>
    rw [lookup_insert'] at hrow
    split_ifs at hrow with hd
    · cases hrow
      have hnone : old.result = none := by
        refine (hdb e old hold).waiting ?_
        simp only [ReconciliationDb.claimable, Bool.or_eq_true, Bool.and_eq_true, beq_iff_eq] at hdue
        exact hdue.imp And.left And.left
      constructor <;> intro h <;> simp_all
    · exact hdb d row hrow
  | @move call c old new hclaim hold hheld hmoves =>
    obtain ⟨hclaimed, -, htoken, -⟩ := ReconciliationDb.holdsClaim_iff.mp hheld
    rw [lookup_insert'] at hrow
    split_ifs at hrow with hd
    · cases hrow
      cases hmoves with
      | renew hstate hresult =>
        have hnone := (hdb _ old hold).waiting (.inr hclaimed)
        constructor <;> intro h <;> simp_all
      | @resolve c' result code hknown hstate hresult =>
        obtain rfl : c' = c := Option.some.inj hclaim
        refine ⟨fun _ ↦ ?_, fun h ↦ ?_, fun h ↦ ?_, fun _ hresult' ↦ ?_⟩
        · rw [hresult]
          cases result <;> simp_all
        · simp_all
        · simp_all
        · obtain rfl := Option.some.inj (hresult.symm.trans hresult')
          exact hd ▸ hactive c' code old rfl hold hclaimed htoken
      | block hstate hresult => constructor <;> intro h <;> simp_all
      | retry hstate hresult => exact .of_pending hstate hresult
    · exact hdb d row hrow

/-- A commit leaves every row within the checks of its table. -/
theorem Commits.checked (h : Commits now db call claim db') (hdb : Checked db) : Checked db' := by
  intro d row hrow
  cases h with
  | idle => exact hdb d row hrow
  | request hlive hfree hdeployment hstate hresult hchecks =>
    rw [lookup_insert'] at hrow
    split_ifs at hrow
    · exact Option.some.inj hrow ▸ hchecks
    · exact hdb d row hrow
  | schedule hframe hrows =>
    rcases hrows d with hsame | ⟨-, -, -, new, hnew, -, -, hchecks⟩
    · exact hdb d row (hsame ▸ hrow)
    · exact Option.some.inj (hnew.symm.trans hrow) ▸ hchecks
  | claimNext hold hdue hstate hresult htoken hclaim hchecks =>
    rw [lookup_insert'] at hrow
    split_ifs at hrow
    · exact Option.some.inj hrow ▸ hchecks
    · exact hdb d row hrow
  | move hclaim hold hheld hmoves hchecks =>
    rw [lookup_insert'] at hrow
    split_ifs at hrow
    · exact Option.some.inj hrow ▸ hchecks
    · exact hdb d row hrow

end ReconciliationCall

/-! ## Histories -/

/-- The database with the claims that were handed out, latest first. -/
structure ReconciliationHistory where
  db : Database
  issued : List RuntimeReconciliationClaim

namespace ReconciliationHistory

/-- The latest claim on a deployment. -/
def latest (h : ReconciliationHistory) (d : Uuid) : Option RuntimeReconciliationClaim :=
  h.issued.find? (·.reconciliation.deploymentId = d)

/-- A transaction commits, whatever statuses of projects it has read. A token is drawn once. -/
inductive Transaction (h : ReconciliationHistory) :
    DatabaseCall → Option RuntimeReconciliationClaim → ReconciliationHistory → Prop
  | reconciliation {call : ReconciliationCall} {status : Statuses} {now : Time}
    {claim : Option RuntimeReconciliationClaim} {view : ReconciliationDb}
    (hfresh : ∀ token ∈ call.token?, ∀ old ∈ h.issued, old.token ≠ token)
    (hexec : call.exec now (h.db.reconciliationDb status) = .ok (claim, view)) :
    Transaction h (.reconciliation call) claim
      ⟨h.db.putReconciliationDb view, claim.toList ++ h.issued⟩
  | other {call : DatabaseCall} {status : Statuses} {now : ℕ → Time} {db' : Database}
    (hcall : ∀ c, call ≠ .reconciliation c) (hexec : call.exec status now h.db = .ok db') :
    Transaction h call none ⟨db', h.issued⟩

/-- While the claim is the one in the row, its deployment has succeeded. -/
def Sealed (h : ReconciliationHistory) (claim : RuntimeReconciliationClaim) : Prop :=
  ∀ row, h.db.reconciliations.lookup claim.reconciliation.deploymentId = some row →
    row.state = .claimed → row.claimToken = some claim.token →
    h.db.Succeeded claim.reconciliation.deploymentId

/-- What holds of every history. -/
structure Good (h : ReconciliationHistory) : Prop where
  consistent : ∀ status, (h.db.deploymentDb status).Consistent
  tokens : (h.issued.map (·.token)).Nodup
  fence : ∀ d row, h.db.reconciliations.lookup d = some row → row.state = .claimed →
    ∃ claim, h.latest d = some claim ∧ row.claimToken = some claim.token
  checked : ∀ d row, h.db.reconciliations.lookup d = some row → row.checks = true
  settled : ∀ d row, h.db.reconciliations.lookup d = some row →
    ReconciliationCall.Settled h.db d row

variable {h h' : ReconciliationHistory} {call : DatabaseCall}
  {claim : Option RuntimeReconciliationClaim}

/-- What another transaction leaves of the reconciliations, and of their deployments. -/
theorem other_rows {db db' : Database} {status : Statuses} {now : ℕ → Time}
    (hc : call.Commits status now db db') (hcall : ∀ c, call ≠ .reconciliation c)
    (hconsistent : (db.deploymentDb status).Consistent) {d : Uuid} {row : RuntimeReconciliationRow}
    (hrow : db'.reconciliations.lookup d = some row) :
    db.reconciliations.lookup d = some row ∧ (db.Succeeded d → db'.Succeeded d) := by
  cases hc with
  | deployment hexec =>
    refine ⟨hrow, fun ⟨old, hold, hstatus⟩ ↦ ?_⟩
    rcases (DeploymentCall.exec_ok hconsistent hexec).ended hold (by rw [hstatus]; rfl) with
      hsame | ⟨new, hnew, -, hsucceeded, -⟩
    · exact ⟨old, hsame, hstatus⟩
    · exact ⟨new, hnew, hsucceeded⟩
  | reconciliation => exact absurd rfl (hcall _)
  | deletion hc =>
    cases hc with
    | @request q c job hproject =>
      unfold Database.markDeleting at hrow ⊢
      split at hrow <;> exact ⟨hrow, id⟩
    | @finalize claim =>
      rw [Database.eraseProject, lookup_eraseWhere] at hrow
      split_ifs at hrow with hmine
      refine ⟨hrow, fun ⟨old, hold, hstatus⟩ ↦ ⟨old, ?_, hstatus⟩⟩
      rw [Database.eraseProject, lookup_eraseWhere, if_neg hmine]
      exact hold
    | _ => exact ⟨hrow, id⟩
  | _ => exact ⟨hrow, id⟩

theorem latest_append (db : Database) {d : Uuid}
    (hclaim : ∀ c, claim = some c → c.reconciliation.deploymentId ≠ d) :
    (ReconciliationHistory.mk db (claim.toList ++ h.issued)).latest d = h.latest d := by
  cases claim with
  | none => rfl
  | some c =>
    have hne := hclaim c rfl
    simp [latest, hne]

theorem Transaction.good (hg : h.Good) (ht : h.Transaction call claim h')
    (hactive : ∀ c code, call = .reconciliation (.resolve c .active code) → h.Sealed c) :
    h'.Good := by
  cases ht with
  | @reconciliation call status now claim view hfresh hexec =>
    have hcommits := ReconciliationCall.exec_ok hexec
    refine ⟨hg.consistent, ?_, fun d row hrow hstate ↦ ?_, hcommits.checked hg.checked,
      fun d row hrow ↦ ?_⟩
    · cases claim with
      | none => exact hg.tokens
      | some c =>
        cases hcommits with
        | claimNext hold hdue hstate hresult htoken hclaim =>
          refine List.nodup_cons.mpr ⟨fun hmem ↦ ?_, hg.tokens⟩
          obtain ⟨old, hold, heq⟩ := List.mem_map.mp hmem
          exact hfresh _ rfl old hold (heq.trans hclaim.2.1)
    · rcases hcommits.claimed hrow hstate with
        ⟨old, hold, hclaimed, htoken, hne⟩ | ⟨c, rfl, rfl, htoken, -⟩
      · obtain ⟨c, hlatest, hold'⟩ := hg.fence d old hold hclaimed
        exact ⟨c, (latest_append _ hne).trans hlatest, htoken.trans hold'⟩
      · exact ⟨c, by simp [latest], htoken⟩
    · refine (hcommits.settled hg.settled (fun c code row heq hlookup hstate htoken ↦ ?_) hrow).mono id
      exact hactive c code (by rw [heq]) row hlookup hstate htoken
  | other hcall hexec =>
    have hcommits := DatabaseCall.exec_ok hexec
    refine ⟨fun status ↦ hcommits.consistent (hg.consistent status), hg.tokens,
      fun d row hrow hstate ↦ ?_, fun d row hrow ↦ ?_, fun d row hrow ↦ ?_⟩
    all_goals obtain ⟨hold, hsucceeded⟩ := other_rows hcommits hcall (hg.consistent _) hrow
    · exact hg.fence d row hold hstate
    · exact hg.checked d row hold
    · exact (hg.settled d row hold).mono hsucceeded

/-- What a worker relies on: claims stay issued, and a claim whose deployment has succeeded stays
so. -/
def Rely (h h' : ReconciliationHistory) : Prop :=
  ∀ c ∈ h.issued, c ∈ h'.issued ∧ (h.Sealed c → h'.Sealed c)

theorem Rely.refl (h : ReconciliationHistory) : Rely h h := fun _ hc ↦ ⟨hc, id⟩

theorem Rely.trans {h₁ h₂ h₃ : ReconciliationHistory} (h₁₂ : Rely h₁ h₂) (h₂₃ : Rely h₂ h₃) :
    Rely h₁ h₃ := fun c hc ↦
  ⟨(h₂₃ c (h₁₂ c hc).1).1, fun hs ↦ (h₂₃ c (h₁₂ c hc).1).2 ((h₁₂ c hc).2 hs)⟩

theorem Transaction.rely (hg : h.Good) (ht : h.Transaction call claim h') : Rely h h' := by
  intro c hc
  cases ht with
  | @reconciliation call status now claim view hfresh hexec =>
    refine ⟨List.mem_append_right _ hc, fun hsealed row hrow hstate htoken ↦ ?_⟩
    rcases (ReconciliationCall.exec_ok hexec).claimed hrow hstate with
      ⟨old, hold, hclaimed, hsame, -⟩ | ⟨c', rfl, -, htoken', hdrawn⟩
    · exact hsealed old hold hclaimed (hsame.symm.trans htoken)
    · exact absurd (Option.some.inj (htoken.symm.trans htoken')) (hfresh _ hdrawn c hc)
  | other hcall hexec =>
    refine ⟨hc, fun hsealed row hrow hstate htoken ↦ ?_⟩
    obtain ⟨hold, hsucceeded⟩ :=
      other_rows (DatabaseCall.exec_ok hexec) hcall (hg.consistent _) hrow
    exact hsucceeded (hsealed row hold hstate htoken)

/-! ## Workers -/

/-- The transaction behind an operation of a worker, with what the repository draws for it. -/
inductive Behind : Op → DatabaseCall → Prop
  | scheduleAutomatic (candidates : List (Uuid × Time)) :
    Behind (.reconciliations (.scheduleAutomatic candidates))
      (.reconciliation (.scheduleAutomatic candidates))
  | claimNext (workerId : String) (duration : Time) (token : Uuid) (locked : Uuid → Bool) :
    Behind (.reconciliations (.claimNext workerId duration))
      (.reconciliation (.claimNext workerId duration token locked))
  | renew (c : RuntimeReconciliationClaim) (duration : Time) :
    Behind (.reconciliations (.renew c duration)) (.reconciliation (.renew c duration))
  | resolve (c : RuntimeReconciliationClaim) (result : ReconciliationResult) (code : String) :
    Behind (.reconciliations (.resolve c result code)) (.reconciliation (.resolve c result code))
  | block (c : RuntimeReconciliationClaim) (code : String) :
    Behind (.reconciliations (.block c code)) (.reconciliation (.block c code))
  | retry (c : RuntimeReconciliationClaim) (availableAt : Time) (code : String) :
    Behind (.reconciliations (.retry c availableAt code))
      (.reconciliation (.retry c availableAt code))
  | reconcileSucceeded (d : Uuid) (eventId : ℕ) :
    Behind (.deployments (.reconcileSucceeded d)) (.deployment (.reconcileSucceeded d) eventId)
  | recordReconciliationDiagnostics (d : Uuid) (stage code : String)
    (drafts : List DiagnosticArtifactDraft) (retention : Time)
    (artifacts : List (Uuid × DiagnosticArtifactDraft)) (hdrafts : artifacts.map Prod.snd = drafts)
    (eventId : ℕ) :
    Behind (.deployments (.recordReconciliationDiagnostics d stage code drafts retention))
      (.deployment (.recordReconciliationDiagnostics d ⟨stage, code, artifacts, retention⟩) eventId)
  | ensureGateway (p : Uuid) (gateway : String) (port : ℕ) (row : ProjectRuntime) :
    Behind (.runtimes (.ensureGateway p gateway port)) (.runtime p row)
  | activate (p d : Uuid) (network : String) (containers images : List String)
    (row : ProjectRuntime) :
    Behind (.runtimes (.activate p d network containers images)) (.runtime p row)

/-- The operation has nothing to do with the tables the worker writes. -/
def Elsewhere (o : Op) : Prop := (∀ call, ¬ Behind o call) ∧ ∀ d, o ≠ .deployments (.get d)

/-- What comes of an operation of a worker. -/
inductive React (h : ReconciliationHistory) :
    (o : Op) → Except Exc (Ans o) → ReconciliationHistory → Prop
  | raise (o : Op) (x : Exc) : React h o (.error x) h
  /-- The transaction has been committed, and its answer is lost. -/
  | lost {o : Op} {call : DatabaseCall} {claim : Option RuntimeReconciliationClaim}
    {h' : ReconciliationHistory} (hb : Behind o call) (ht : h.Transaction call claim h') (x : Exc) :
    React h o (.error x) h'
  | claimNext {workerId : String} {duration : Time} {token : Uuid} {locked : Uuid → Bool}
    {claim : Option RuntimeReconciliationClaim} {h' : ReconciliationHistory}
    (ht : h.Transaction (.reconciliation (.claimNext workerId duration token locked)) claim h') :
    React h (.reconciliations (.claimNext workerId duration)) (.ok claim) h'
  | write {o : Op} {call : DatabaseCall} {h' : ReconciliationHistory}
    (ho : ∀ workerId duration, o ≠ .reconciliations (.claimNext workerId duration))
    (hb : Behind o call) (ht : h.Transaction call none h') (a : Ans o) : React h o (.ok a) h'
  | get {d : Uuid} {row : Deployment} (hrow : h.db.deployments.lookup d = some row) :
    React h (.deployments (.get d)) (.ok row) h
  | elsewhere {o : Op} (ho : Elsewhere o) (a : Ans o) : React h o (.ok a) h

/-- The operation does not end a reconciliation as active. -/
def Harmless : Op → Prop
  | .reconciliations (.resolve _ .active _) => False
  | _ => True

end ReconciliationHistory

/-- What a processor does itself ends no reconciliation as active. -/
structure ReconciliationProcessor.Confined (processor : ReconciliationProcessor) : Prop where
  recover : ∀ d heartbeat, Prog.Uses ReconciliationHistory.Harmless heartbeat →
    (processor.recover d heartbeat).Uses ReconciliationHistory.Harmless
  cleanupCandidateVerified : ∀ d heartbeat, Prog.Uses ReconciliationHistory.Harmless heartbeat →
    (processor.cleanupCandidateVerified d heartbeat).Uses ReconciliationHistory.Harmless
  prepareReconciliationCleanup : ∀ d heartbeat,
    Prog.Uses ReconciliationHistory.Harmless heartbeat →
    (processor.prepareReconciliationCleanup d heartbeat).Uses ReconciliationHistory.Harmless
  captureDiagnostics : ∀ d failure heartbeat,
    Prog.Uses ReconciliationHistory.Harmless heartbeat →
    (processor.captureDiagnostics d failure heartbeat).Uses ReconciliationHistory.Harmless

namespace ReconciliationHistory

variable {h h' : ReconciliationHistory}

/-- Workers under names, beside whoever else uses the database. -/
def rules : Pool.Rules ℕ ReconciliationHistory Op Ans Exc Bool where
  step _ := React
  spawn _ p := ∃ worker : RuntimeReconciliationWorker, worker.processor.Confined ∧ p = worker.runOnce
  die _ h h' := h' = h
  other h h' := ∃ call claim, h.Transaction call claim h'
    ∧ ∀ c code, call ≠ .reconciliation (.resolve c .active code)

/-- A worker ends a reconciliation as active only when its deployment has succeeded. -/
def Guar (h : ReconciliationHistory) (o : Op) (_ : Except Exc (Ans o)) (_ : ReconciliationHistory) :
    Prop := ∀ c code, o = .reconciliations (.resolve c .active code) → h.Sealed c

def proof : Pool.Proof ℕ ReconciliationHistory Op Ans Exc where
  inv := Good
  rely _ := Rely
  guar _ := Guar
  idle _ _ := True

/-- The setting of a worker. -/
abbrev setting (i : ℕ) : Setting ReconciliationHistory Op Ans Exc := proof.setting rules i

theorem React.transaction {o : Op} {r : Except Exc (Ans o)} (hr : React h o r h') :
    h' = h ∨ ∃ call claim, Behind o call ∧ h.Transaction call claim h' := by
  cases hr with
  | raise => exact .inl rfl
  | lost hb ht => exact .inr ⟨_, _, hb, ht⟩
  | claimNext ht => exact .inr ⟨_, _, .claimNext _ _ _ _, ht⟩
  | write ho hb ht => exact .inr ⟨_, _, hb, ht⟩
  | get => exact .inl rfl
  | elsewhere => exact .inl rfl

theorem Behind.resolve_iff {o : Op} {call : DatabaseCall} (hb : Behind o call)
    {c : RuntimeReconciliationClaim} {code : String}
    (hcall : call = .reconciliation (.resolve c .active code)) :
    o = .reconciliations (.resolve c .active code) := by
  cases hb <;> cases hcall
  rfl

theorem React.rely {o : Op} {r : Except Exc (Ans o)} (hg : h.Good) (hr : React h o r h') :
    Rely h h' := by
  rcases hr.transaction with rfl | ⟨call, claim, -, ht⟩
  · exact Rely.refl _
  · exact ht.rely hg

theorem React.good {o : Op} {r : Except Exc (Ans o)} (hg : h.Good) (hr : React h o r h')
    (hguar : Guar h o r h') : h'.Good := by
  rcases hr.transaction with rfl | ⟨call, claim, hb, ht⟩
  · exact hg
  · exact ht.good hg fun c code hcall ↦ hguar c code (hb.resolve_iff hcall)

theorem Harmless.guar {o : Op} (ho : Harmless o) (h : ReconciliationHistory)
    (r : Except Exc (Ans o)) (h' : ReconciliationHistory) : Guar h o r h' := by
  rintro c code rfl
  exact ho.elim

/-- A harmless operation keeps what is stable. -/
theorem keeps {i : ℕ} {I : ReconciliationHistory → Prop} (hI : ∀ h h', I h → Rely h h' → I h')
    {o : Op} (ho : Harmless o) : (setting i).Keeps I o := by
  intro s s₁ r s₂ hs hrely hstep
  exact ⟨ho.guar s₁ r s₂, hI _ _ (hI _ _ hs hrely.2) (hstep.rely hrely.1)⟩

theorem stable_issued (c : RuntimeReconciliationClaim) (h h' : ReconciliationHistory)
    (hc : c ∈ h.issued) (hr : Rely h h') : c ∈ h'.issued := (hr c hc).1

theorem stable_sealed (c : RuntimeReconciliationClaim) (h h' : ReconciliationHistory)
    (hc : c ∈ h.issued ∧ h.Sealed c) (hr : Rely h h') : c ∈ h'.issued ∧ h'.Sealed c :=
  ⟨(hr c hc.1).1, (hr c hc.1).2 hc.2⟩

theorem preserves {i : ℕ} {I : ReconciliationHistory → Prop} (hI : ∀ h h', I h → Rely h h' → I h')
    {α : Type} {p : Py α} (hp : p.Uses Harmless) : Preserves (setting i) I p :=
  .of_uses (hp.mono fun _ ho ↦ keeps hI ho)

section Programs

variable {worker : RuntimeReconciliationWorker} {claim : RuntimeReconciliationClaim}
  {deployment : Deployment} {capture code : String}

theorem heartbeat_uses : (worker.heartbeat claim).Uses Harmless :=
  .bind (Prog.uses_op.mpr trivial) fun _ ↦ trivial

theorem unlessClaimLost_uses {p otherwise : Py Unit} (hp : p.Uses Harmless)
    (hotherwise : otherwise.Uses Harmless) :
    (RuntimeReconciliationWorker.unlessClaimLost p otherwise).Uses Harmless := by
  refine hp.handle fun r ↦ ?_
  split
  · exact hotherwise
  · trivial
  · trivial

theorem captureBeforeCleanup_uses (hc : worker.processor.Confined) :
    (worker.captureBeforeCleanup claim deployment code).Uses Harmless := by
  unfold RuntimeReconciliationWorker.captureBeforeCleanup
  split
  · trivial
  · refine unlessClaimLost_uses (hc.prepareReconciliationCleanup _ _ heartbeat_uses)
      (unlessClaimLost_uses (.bind ?_ fun artifacts ↦ ?_) trivial)
    · exact hc.captureDiagnostics _ _ _ heartbeat_uses
    · exact Prog.uses_op.mpr trivial

theorem cleanUp_uses (hc : worker.processor.Confined) :
    (worker.cleanUp claim deployment capture code).Uses Harmless :=
  .bind (captureBeforeCleanup_uses hc) fun _ ↦
    .bind (hc.cleanupCandidateVerified _ _ heartbeat_uses) fun _ ↦
      .bind heartbeat_uses fun _ ↦ Prog.uses_op.mpr trivial

theorem ignoreClaimLost_uses {p : Py Unit} (hp : p.Uses Harmless) :
    (RuntimeReconciliationWorker.ignoreClaimLost p).Uses Harmless := by
  refine hp.tryCatch fun x ↦ ?_
  dsimp only
  split <;> trivial

theorem settleException_uses (x : Exc) : (worker.settleException claim x).Uses Harmless := by
  have hblock (code : String) :
      (RuntimeReconciliationWorker.block claim code).Uses Harmless :=
    ignoreClaimLost_uses (Prog.uses_op.mpr trivial)
  have hfailure (failure : RuntimeFailure) :
      (worker.handleFailure claim failure).Uses Harmless := by
    refine ignoreClaimLost_uses ?_
    split
    · exact .bind (Prog.uses_op.mpr trivial) fun _ ↦ Prog.uses_op.mpr trivial
    · exact Prog.uses_op.mpr trivial
  unfold RuntimeReconciliationWorker.settleException
  split
  · trivial
  · exact hblock _
  · exact hblock _
  · exact hfailure _
  · exact hfailure _

theorem succeeded_of_reconciled {d : Uuid} {row : Deployment}
    (hr : React h (.deployments (.reconcileSucceeded d)) (.ok row) h') : h'.db.Succeeded d := by
  cases hr with
  | write ho hb ht =>
    cases hb
    cases ht with
    | other hcall hexec =>
      obtain ⟨⟨claim, view⟩, hcall, rfl⟩ := map_eq_ok hexec
      obtain ⟨⟨r, view'⟩, hreconciled, heq⟩ := map_eq_ok hcall
      obtain rfl := (Prod.mk.inj heq).2
      exact DeploymentDb.reconcileSucceeded_status hreconciled
  | elsewhere ho => exact absurd (.reconcileSucceeded d 0) (ho.1 _)

theorem id_of_get {status : Statuses} (hc : (h.db.deploymentDb status).Consistent) {d : Uuid}
    {row : Deployment} (hr : React h (.deployments (.get d)) (.ok row) h') : row.id = d := by
  cases hr with
  | get hrow => exact hc.ids d row hrow
  | write ho hb ht => cases hb
  | elsewhere ho => exact absurd rfl (ho.2 d)

theorem issued_of_claimNext {workerId : String} {duration : Time}
    (hr : React h (.reconciliations (.claimNext workerId duration)) (.ok (some claim)) h') :
    claim ∈ h'.issued := by
  cases hr with
  | claimNext ht =>
    cases ht with
    | reconciliation => exact List.mem_cons_self
  | write ho => exact absurd rfl (ho workerId duration)
  | elsewhere ho => exact absurd (.claimNext workerId duration (.ofNat 0) fun _ ↦ false) (ho.1 _)

/-- The deployment is settled before its reconciliation. -/
theorem settleActive_preserves {i : ℕ}
    (hid : deployment.id = claim.reconciliation.deploymentId) :
    Preserves (setting i) (fun s ↦ claim ∈ s.issued) (worker.settleActive claim deployment) := by
  have hsealed : Preserves (setting i) (fun s ↦ claim ∈ s.issued ∧ s.Sealed claim)
      (Py.reconciliations (.resolve claim .active "ACTIVE_GENERATION_RECONCILED")) := by
    refine .op fun s s₁ r s₂ hs hrely hstep ↦ ⟨fun c code heq ↦ ?_, ?_⟩
    · cases heq
      exact (stable_sealed claim _ _ hs hrely.2).2
    · exact stable_sealed claim _ _ (stable_sealed claim _ _ hs hrely.2) (hstep.rely hrely.1)
  refine (preserves (stable_issued claim) heartbeat_uses).bind fun _ ↦ ?_
  intro s hs
  rw [wp_bind]
  unfold Py.deployments
  rw [wp_op]
  intro s₁ hrely r s₂ hstep
  have hissued := stable_issued claim _ _ (stable_issued claim _ _ hs hrely.2) (hstep.rely hrely.1)
  refine ⟨Harmless.guar (by trivial) s₁ r s₂, ?_⟩
  cases r with
  | error x => exact hissued
  | ok reconciled =>
    have hsucceeded : s₂.db.Succeeded claim.reconciliation.deploymentId :=
      hid ▸ succeeded_of_reconciled hstep
    rw [andThen_ok]
    refine (Preserves.bind ?_ fun _ ↦ hsealed).apply ⟨hissued, fun _ _ _ _ ↦ hsucceeded⟩
      fun _ _ hs' ↦ hs'.1
    refine preserves (stable_sealed claim) ?_
    unfold RuntimeReconciliationWorker.wakeRouting
    split
    · exact (Prog.uses_op.mpr trivial).tryCatch fun _ ↦ trivial
    · trivial

/-- The body of the `try` statement. -/
theorem runClaim_preserves {i : ℕ} (hc : worker.processor.Confined) :
    Preserves (setting i) (fun s ↦ claim ∈ s.issued) (worker.runClaim claim) := by
  unfold RuntimeReconciliationWorker.runClaim
  split
  · exact preserves (stable_issued claim) (Prog.uses_op.mpr trivial)
  intro s hs
  rw [wp_bind]
  unfold Py.deployments
  rw [wp_op]
  intro s₁ hrely r s₂ hstep
  have hissued := stable_issued claim _ _ (stable_issued claim _ _ hs hrely.2) (hstep.rely hrely.1)
  refine ⟨Harmless.guar (by trivial) s₁ r s₂, ?_⟩
  cases r with
  | error x => exact hissued
  | ok deployment =>
    have hid : deployment.id = claim.reconciliation.deploymentId :=
      id_of_get (hrely.1.consistent s₁.db.statuses) hstep
    refine ((preserves (stable_issued claim) (hc.recover _ _ heartbeat_uses)).bind
      fun disposition ↦ ?_) s₂ hissued
    cases disposition with
    | active => exact settleActive_preserves hid
    | safeToRetry => exact preserves (stable_issued claim) (cleanUp_uses hc)
    | uncertain =>
      refine preserves (stable_issued claim) ?_
      dsimp only
      split
      · exact cleanUp_uses hc
      · exact Prog.uses_op.mpr trivial

theorem runOnce_wp {i : ℕ} (hc : worker.processor.Confined) (s : ReconciliationHistory) :
    wp (setting i) worker.runOnce (fun _ _ ↦ True) s := by
  have hfree {α : Type} {p : Py α} (hp : p.Uses Harmless) :
      Preserves (setting i) (fun _ ↦ True) p := preserves (fun _ _ _ _ ↦ trivial) hp
  refine Preserves.bind (hfree (Prog.uses_op.mpr (by trivial))) (fun now ↦ Preserves.bind
    (hfree (Prog.uses_op.mpr (by trivial))) fun eligible ↦ Preserves.bind
    (hfree (Prog.uses_op.mpr (by trivial))) fun _ ↦ ?_) s trivial
  intro s _
  rw [wp_bind]
  unfold Py.reconciliations
  rw [wp_op]
  intro s₁ hrely r s₂ hstep
  refine ⟨Harmless.guar (by trivial) s₁ r s₂, ?_⟩
  cases r with
  | error x => trivial
  | ok claim =>
    cases claim with
    | none => trivial
    | some claim =>
      refine (Preserves.bind (Preserves.tryCatch (runClaim_preserves hc) fun x ↦ ?_)
        fun _ ↦ .pure true).apply (issued_of_claimNext hstep) fun _ _ _ ↦ trivial
      exact preserves (stable_issued claim) (settleException_uses x)

end Programs

/-- **Each worker is verified on its own.** -/
theorem valid : proof.Valid rules where
  refl _ := Rely.refl
  trans _ _ _ _ := Rely.trans
  idle _ _ _ _ _ := trivial
  spawn i p s hp _ _ := by
    obtain ⟨worker, hc, rfl⟩ := hp
    exact runOnce_wp hc s
  run i s o r s' hg hstep hguar := ⟨hstep.good hg hguar, fun _ _ ↦ hstep.rely hg⟩
  die i s s' hg hdie := by
    obtain rfl : s' = s := hdie
    exact ⟨hg, trivial, fun _ _ ↦ Rely.refl _⟩
  other s s' hg hother := by
    obtain ⟨call, claim, ht, hcall⟩ := hother
    exact ⟨ht.good hg fun c code heq ↦ absurd heq (hcall c code), fun _ ↦ ht.rely hg⟩

def start : ReconciliationHistory := ⟨.empty, []⟩

theorem Good.start : start.Good := by
  have hnone (d : Uuid) : ReconciliationHistory.start.db.reconciliations.lookup d = none := rfl
  refine ⟨fun status ↦ ⟨fun d row hrow ↦ (nomatch hrow), fun d ↦ ?_,
    fun d row job hrow ↦ (nomatch hrow), fun d e a b ha ↦ (nomatch ha)⟩, List.nodup_nil, ?_, ?_, ?_⟩
  · exact ⟨fun ⟨_, hrow⟩ ↦ (nomatch hrow), fun ⟨_, hjob⟩ ↦ (nomatch hjob)⟩
  all_goals
    intro d row hrow
    rw [hnone] at hrow
    cases hrow

/-- The pools that are reached. -/
def Reachable (pool : Pool ℕ ReconciliationHistory Op Ans Exc Bool) : Prop :=
  Relation.ReflTransGen (Pool.Step rules) ⟨start, []⟩ pool

theorem Reachable.good {pool : Pool ℕ ReconciliationHistory Op Ans Exc Bool}
    (hr : Reachable pool) : pool.state.Good :=
  ((Pool.Sound.initial Good.start fun _ ↦ trivial).steps valid hr).inv

/-- A request leaves a row alone that somebody has claimed. -/
theorem Transaction.request {d : Uuid} {action : ReconciliationAction}
    {requestedBy : ReconciliationRequester} {claim : Option RuntimeReconciliationClaim}
    (ht : h.Transaction (.reconciliation (.request d action requestedBy)) claim h') {e : Uuid}
    {row : RuntimeReconciliationRow} (hrow : h.db.reconciliations.lookup e = some row)
    (hstate : row.state = .claimed) : h'.db.reconciliations.lookup e = some row := by
  cases ht with
  | reconciliation hfresh hexec =>
    cases ReconciliationCall.exec_ok hexec with
    | request hlive hfree =>
      have hne : e ≠ d := fun heq ↦ hfree row (heq ▸ hrow) hstate
      exact (AList.lookup_insert_ne hne).trans hrow
    | move hclaim => cases hclaim
  | other hcall => exact absurd rfl (hcall _)

/-- What goes through under a claim. -/
theorem Good.latest_of_exec (hg : h.Good) {call : ReconciliationCall}
    {c : RuntimeReconciliationClaim} (hclaim : call.claim? = some c) {status : Statuses}
    {now : Time} {r : Option RuntimeReconciliationClaim × ReconciliationDb}
    (hexec : call.exec now (h.db.reconciliationDb status) = .ok r) :
    ∃ latest row lease, h.latest c.reconciliation.deploymentId = some latest
      ∧ c.token = latest.token
      ∧ h.db.reconciliations.lookup c.reconciliation.deploymentId = some row
      ∧ row.leaseExpiresAt = some lease ∧ now < lease := by
  obtain ⟨claim, view⟩ := r
  cases ReconciliationCall.exec_ok hexec with
  | @move call c' old new hclaim' hold hheld =>
    obtain rfl := Option.some.inj (hclaim.symm.trans hclaim')
    obtain ⟨hstate, -, htoken, lease, hlease, hlt⟩ := ReconciliationDb.holdsClaim_iff.mp hheld
    obtain ⟨latest, hlatest, hsame⟩ := hg.fence _ old hold hstate
    exact ⟨latest, old, lease, hlatest, Option.some.inj (htoken.symm.trans hsame), hold, hlease, hlt⟩
  | _ => cases hclaim

/-- **Claims on reconciliations.** Whatever workers and other transactions run side by side, with
workers that die and leases that run out at any moment: a request leaves every claimed row alone; what
goes through under a claim has the token of the latest claim on its deployment and a lease that is
still running; the checks of the table hold and no operation is refused for them; and the result of a
reconciliation fits its state, where one resolved as active belongs to a deployment that has
succeeded. -/
theorem reachable_reconciliations {pool : Pool ℕ ReconciliationHistory Op Ans Exc Bool}
    (hr : Reachable pool) :
    (∀ d action requestedBy claim h', pool.state.Transaction
        (.reconciliation (.request d action requestedBy)) claim h' →
      ∀ e row, pool.state.db.reconciliations.lookup e = some row → row.state = .claimed →
        h'.db.reconciliations.lookup e = some row)
    ∧ (∀ (call : ReconciliationCall) c, call.claim? = some c → ∀ status now r,
      call.exec now (pool.state.db.reconciliationDb status) = .ok r →
        ∃ latest row lease, pool.state.latest c.reconciliation.deploymentId = some latest
          ∧ c.token = latest.token
          ∧ pool.state.db.reconciliations.lookup c.reconciliation.deploymentId = some row
          ∧ row.leaseExpiresAt = some lease ∧ now < lease)
    ∧ (∀ (call : ReconciliationCall) status now,
      call.exec now (pool.state.db.reconciliationDb status) ≠ .error .checkViolation)
    ∧ ∀ d row, pool.state.db.reconciliations.lookup d = some row →
      row.checks = true ∧ ReconciliationCall.Settled pool.state.db d row := by
  have hg := hr.good
  have hchecked (status : Statuses) :
      ReconciliationCall.Checked (pool.state.db.reconciliationDb status) := hg.checked
  exact ⟨fun d action requestedBy claim h' ht e row hrow hstate ↦ ht.request hrow hstate,
    fun call c hclaim status now r hexec ↦ hg.latest_of_exec hclaim hexec,
    fun call status now ↦ ReconciliationCall.exec_ne_checkViolation (hchecked status) call,
    fun d row hrow ↦ ⟨hg.checked d row hrow, hg.settled d row hrow⟩⟩

/-! ## A sample run -/

/-- A project has been created. -/
def sampleCreated : Database :=
  let row : ProjectRow := {
    name := "app"
    repositoryUrl := "https://example/app"
    branch := "main"
    status := .draft
    configVersion := 0
    deploymentConfig := none
    createdAt := 0
    updatedAt := 0 }
  { Database.empty with projects := AList.insert (.ofNat 1) row ∅ }

def sampleRequest : DeploymentDb.DeploymentRequest where
  projectId := .ofNat 1
  sourceType := .mainHead
  requestedCommitSha := none
  resolvedCommitSha := "0123456789012345678901234567890123456789"
  configVersion := 1
  configSnapshot := .null

/-- A deployment of it has been requested. -/
def sampleDeployed : Database :=
  let row : Deployment := { sampleRequest with
    id := .ofNat 9
    status := .queued
    createdAt := 0
    updatedAt := 0 }
  let job : DeploymentJobRow := {
    state := .pending
    availableAt := 0
    createdAt := 0
    updatedAt := 0 }
  { sampleCreated with
    deployments := AList.insert (.ofNat 9) row ∅
    deploymentJobs := AList.insert (.ofNat 9) job ∅ }

def sampleRow : RuntimeReconciliationRow where
  action := .reconcile
  requestedBy := .admin
  state := .pending
  availableAt := 0
  createdAt := 0
  updatedAt := 0

/-- And a reconciliation of the deployment. -/
def sampleReconciled : Database :=
  { sampleDeployed with reconciliations := AList.insert (.ofNat 9) sampleRow ∅ }

theorem reachable_sample : Reachable ⟨⟨sampleReconciled, []⟩, []⟩ := by
  have hcreate : DatabaseCall.exec (fun _ ↦ none) (fun _ ↦ 0) .empty
      (.createProject (.ofNat 1) "app" "https://example/app") = .ok sampleCreated := rfl
  have hdeploy : DatabaseCall.exec (fun _ ↦ some .draft) (fun _ ↦ 0) sampleCreated
      (.deployment (.create (.ofNat 9) sampleRequest) 0) = .ok sampleDeployed := rfl
  have hrequest : ReconciliationCall.exec 0 (sampleDeployed.reconciliationDb fun _ ↦ some .draft)
      (.request (.ofNat 9) .reconcile .admin)
      = .ok (none, sampleReconciled.reconciliationDb fun _ ↦ some .draft) := rfl
  have hcreated : Reachable ⟨⟨sampleCreated, []⟩, []⟩ :=
    .single (.other _ _ [] ⟨_, _, .other (by simp) hcreate, by simp⟩)
  have hdeployed : Reachable ⟨⟨sampleDeployed, []⟩, []⟩ :=
    hcreated.tail (.other _ _ [] ⟨_, _, .other (by simp) hdeploy, by simp⟩)
  have hrequested : (ReconciliationHistory.mk sampleDeployed []).Transaction
      (.reconciliation (.request (.ofNat 9) .reconcile .admin)) none ⟨sampleReconciled, []⟩ :=
    @Transaction.reconciliation ⟨sampleDeployed, []⟩ _ (fun _ ↦ some .draft) 0 none
      (sampleReconciled.reconciliationDb fun _ ↦ some .draft)
      (by simp [ReconciliationCall.token?]) hrequest
  exact hdeployed.tail (.other _ _ [] ⟨_, _, hrequested, by simp⟩)

/-- The row of `sampleReconciled`. -/
theorem reachable_reconciliations_sample :
    ∃ row, sampleReconciled.reconciliations.lookup (.ofNat 9) = some row ∧ row.checks = true
      ∧ ReconciliationCall.Settled sampleReconciled (.ofNat 9) row := by
  have hrow : sampleReconciled.reconciliations.lookup (.ofNat 9) = some sampleRow := rfl
  exact ⟨sampleRow, hrow, (reachable_reconciliations reachable_sample).2.2.2 _ _ hrow⟩

end ReconciliationHistory

end Heimdall
