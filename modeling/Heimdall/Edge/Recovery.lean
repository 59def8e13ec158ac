import Heimdall.Edge.Apply

/-!
# Crashes and recovery of the edge files

`apply` and `recover_interrupted` are run one after another on one edge root, by a process that may
stop between any two operations and be started again. Nobody else writes there, an existing file can
be read, and any other file operation may fail; commands, probes, the clock and the callbacks answer
or raise what they like.

`JournalOk` is the invariant: it holds after every single operation of every call
(`EdgeCall.wp_program`), so it does not matter where a run stops.
-/

namespace Heimdall

open Effect

/-- The operations that look at files. -/
def FileOp.Reads : FileOp → Prop
  | .exists _ | .readText _ => True
  | _ => False

/-- A disk nobody else writes: reads of existing files succeed, other file operations may fail, and
everything that is no file operation leaves the files alone. -/
def diskEnv : Env FileSystem Op Ans Exc
  | fs, .file o, r, fs' => FileOp.Step fs o r fs' ∧ (o.Reads → o.Possible fs → Succeeds r)
  | fs, _, _, fs' => fs' = fs

def NoFile (o : Op) : Prop := ∀ f, o ≠ .file f

theorem diskEnv_noFile {fs fs' : FileSystem} {o : Op} {r : Except Exc (Ans o)} (ho : NoFile o)
    (h : diskEnv fs o r fs') : fs' = fs := by
  cases o
  case file f => exact absurd rfl (ho f)
  all_goals exact h

/-! ## Calls -/

/-- A call on the edge configuration. -/
inductive EdgeCall where
  | apply (m : EdgeConfigManager) (routes : List EdgeRouteTarget) (change : Option EdgeRouteChange)
    (cb : EdgeCallbacks) (probeAllRoutes : Bool)
  | recoverInterrupted

def EdgeCall.program : EdgeCall → Py Unit
  | .apply m routes change cb all => m.apply routes change cb all
  | .recoverInterrupted => do
    let _ ← Heimdall.recoverInterrupted

/-- The previous host name of the change is canonical or null, and the callbacks touch no file. -/
def EdgeCall.Admissible : EdgeCall → Prop
  | .apply _ _ change cb _ =>
    (∀ hostname, change.bind EdgeRouteChange.previousHostname = some hostname →
      isHostname hostname = true)
    ∧ cb.heartbeat.Uses NoFile ∧ cb.fence.Uses NoFile ∧ cb.finalize.Uses NoFile
  | .recoverInterrupted => True

/-- A call that runs to its end or stops somewhere on its way. -/
def EdgeSession (fs fs' : FileSystem) : Prop :=
  ∃ call : EdgeCall, call.Admissible ∧ ∃ t p', Trace diskEnv call.program fs t p' fs'

/-- A root without a journal, with a usable live file or none. -/
structure FreshEdge (fs : FileSystem) : Prop where
  journal : fs journalPath = none
  live : ∀ text, fs livePath = some text → ConfigText text

/-- The roots that calls and crashes lead to. -/
def EdgeReachable (fs : FileSystem) : Prop :=
  ∃ fs₀, FreshEdge fs₀ ∧ Relation.ReflTransGen EdgeSession fs₀ fs

/-! ## The invariant -/

/-- The setting in which every operation keeps the journal invariant. -/
abbrev diskSetting : Setting FileSystem Op Ans Exc := .alone diskEnv fun _ _ _ fs' ↦ JournalOk fs'

/-- The only process owns the files. -/
def diskOwnership : Ownership diskSetting where
  files := id
  held _ := True
  strict := True
  reliable := False
  rely _ _ _ h := ⟨trivial, h.symm⟩
  file _ _ _ _ _ _ h := ⟨trivial, h.1, fun hf ↦ hf.elim, fun hsafe ↦ hsafe trivial⟩
  quiet fs o r fs' _ ho h := by
    have hsame : fs' = fs := diskEnv_noFile (fun f hf ↦ by subst hf; exact ho) h
    exact ⟨trivial, hsame, fun hsafe ↦ hsame ▸ hsafe trivial⟩

theorem disk_framed : diskOwnership.Framed fun _ ↦ True where
  stable _ _ _ _ _ := trivial
  turns _ _ _ r _ _ _ _ := by cases r <;> trivial

theorem disk_stage {fs : FileSystem} (h : JournalOk fs) :
    diskOwnership.Stage (fun _ ↦ True) fs fs := ⟨trivial, rfl, fun _ ↦ h, trivial⟩

theorem disk_journalOk {D : FileSystem → Prop} {fs s : FileSystem}
    (h : diskOwnership.Stage D fs s) : JournalOk s := by
  obtain rfl : s = fs := h.files
  exact h.safe trivial

/-- A program without file operations leaves the files as they are. -/
theorem disk_preserves {α : Type} {p : Py α} (hp : p.Uses NoFile) (fs : FileSystem) :
    Preserves diskSetting (diskOwnership.Stage (fun _ ↦ True) fs) p := by
  refine .of_uses (hp.mono fun o ho s s₁ r s₂ hs hrely hstep ↦ ?_)
  obtain rfl : s = s₁ := hrely
  obtain rfl := diskEnv_noFile ho hstep
  exact ⟨disk_journalOk hs, hs⟩

theorem disk_callbackSpec {cb : EdgeCallbacks} (hheartbeat : cb.heartbeat.Uses NoFile)
    (hfence : cb.fence.Uses NoFile) (hfinalize : cb.finalize.Uses NoFile) :
    Ownership.CallbackSpec diskOwnership cb (fun _ ↦ True) (fun _ ↦ True) (fun _ ↦ True) True where
  before := disk_framed
  after := disk_framed
  unknown := disk_framed
  of_before _ := id
  of_after _ := id
  heartbeat := disk_preserves hheartbeat
  fence fs s hs := (disk_preserves hfence fs).apply hs fun _ _ hs' ↦ ⟨hs', fun _ ↦ trivial⟩
  finalize _ fs s hs := (disk_preserves hfinalize fs).apply hs fun r s' hs' ↦ by
    rcases r with x | _
    · cases x <;> exact hs'
    · exact hs'

theorem disk_keeps {o : FileOp} (ho : o.ReadOnly) : diskSetting.Keeps JournalOk (.file o) := by
  intro s s₁ r s₂ hs hrely hstep
  obtain rfl : s = s₁ := hrely
  obtain rfl := hstep.1.readOnly ho
  exact ⟨hs, hs⟩

theorem disk_ensureEdgeDirectory : Preserves diskSetting JournalOk ensureEdgeDirectory :=
  Preserves.bind (.op (disk_keeps trivial)) fun _ ↦ Preserves.bind (.op (disk_keeps trivial))
    fun _ ↦ .ite (.op (disk_keeps trivial)) (.raise _)

theorem disk_withLock {α : Type} {body : Py α} (h : Preserves diskSetting JournalOk body) :
    Preserves diskSetting JournalOk (withLock body) :=
  Preserves.bind (.op (disk_keeps trivial)) fun _ ↦ Preserves.tryFinally
    (Preserves.bind (.op (disk_keeps trivial)) fun _ ↦
      Preserves.bind (.op (disk_keeps trivial)) fun _ ↦ h)
    (.op (disk_keeps trivial))

theorem disk_unlock : Preserves diskSetting JournalOk (Py.file .flockUnlock) :=
  .op (disk_keeps trivial)

/-- **Every call keeps the journal invariant**, after each of its operations. -/
theorem EdgeCall.preserves_program {call : EdgeCall} (hcall : call.Admissible) :
    Preserves diskSetting JournalOk call.program := by
  cases call with
  | recoverInterrupted =>
    refine Preserves.bind (disk_ensureEdgeDirectory.bind fun _ ↦ disk_withLock ?_) fun _ ↦ .pure _
    exact Preserves.tryFinally (preserves_validateInterruptedLocked (fun _ ↦ disk_keeps trivial)
      fun _ ↦ disk_keeps trivial) disk_unlock
  | apply m routes change cb all =>
    obtain ⟨hchange, hheartbeat, hfence, hfinalize⟩ := hcall
    have hcb := disk_callbackSpec hheartbeat hfence hfinalize
    change Preserves diskSetting JournalOk (m.apply routes change cb all)
    unfold EdgeConfigManager.apply
    cases hrendered : renderEdgeRoutes routes with
    | error x => exact .raise x
    | ok rendered =>
    refine disk_ensureEdgeDirectory.bind fun _ ↦ disk_withLock fun fs hfs ↦ ?_
    -- what is left of a stage when the call is over
    have hend : ∀ r s, Ownership.Applied diskOwnership (fun _ ↦ True) (fun _ ↦ True) (fun _ ↦ True)
        rendered (fs livePath) r s → JournalOk s := by
      intro r s h
      cases h with
      | done hlive hjournal hs => exact disk_journalOk hs
      | failed hlive hs => exact disk_journalOk hs
    refine Ownership.wp_applyLocked hcb m hrendered all (fun _ ↦ hchange) (disk_stage hfs)
      (fun r s' h ↦ disk_unlock.apply (hend r s' h) fun r' s'' hs'' ↦ ?_) fun x s' ↦ hend _ s'
    cases r' with
    | ok _ => rwa [andThen_ok, wp_ofExcept]
    | error x => exact hs''

theorem JournalOk.of_fresh {fs : FileSystem} (h : FreshEdge fs) : JournalOk fs :=
  .of_noJournal h.live h.journal

theorem EdgeSession.journalOk {fs fs' : FileSystem} (h : EdgeSession fs fs') (hok : JournalOk fs) :
    JournalOk fs' := by
  obtain ⟨call, hcall, t, p', ht⟩ := h
  exact wp_invariant (call.preserves_program hcall fs hok) hok ht

theorem EdgeReachable.journalOk {fs : FileSystem} (h : EdgeReachable fs) : JournalOk fs := by
  obtain ⟨fs₀, hfresh, hsessions⟩ := h
  induction hsessions with
  | refl => exact .of_fresh hfresh
  | tail _ hsession ih => exact hsession.journalOk ih

/-! ## Recovery -/

/-- The setting of a look at the files. -/
abbrev readSetting : Setting FileSystem Op Ans Exc := .alone diskEnv fun _ _ _ _ ↦ True

theorem wp_diskExists {p : Path} {fs : FileSystem} {Q : Except Exc Bool → FileSystem → Prop}
    (h : Q (.ok (fs p).isSome) fs) : wp readSetting (Py.file (.exists p)) Q fs := by
  unfold Py.file
  rw [wp_op_alone]
  rintro r fs' ⟨hstep, hread⟩
  cases r with
  | error x => exact (hread trivial trivial).elim
  | ok found =>
    obtain ⟨rfl, rfl⟩ : found = (fs p).isSome ∧ fs' = fs := hstep
    exact ⟨trivial, h⟩

theorem wp_diskReadText {p : Path} {fs : FileSystem} {raw : String} (hp : fs p = some raw)
    {Q : Except Exc String → FileSystem → Prop} (h : Q (.ok (decodeText raw)) fs) :
    wp readSetting (Py.file (.readText p)) Q fs := by
  unfold Py.file
  rw [wp_op_alone]
  rintro r fs' ⟨hstep, hread⟩
  cases r with
  | error x => exact (hread trivial (by simp [FileOp.Possible, hp])).elim
  | ok text =>
    obtain ⟨⟨raw', hraw', rfl⟩, rfl⟩ : (∃ raw', fs p = some raw' ∧ text = decodeText raw')
      ∧ fs' = fs := hstep
    obtain rfl : raw = raw' := Option.some.inj (hp.symm.trans hraw')
    exact ⟨trivial, h⟩

/-- A journal is read back; without one there is nothing to recover. -/
theorem wp_readTransaction {fs : FileSystem} (hok : JournalOk fs)
    {Q : Except Exc (Option EdgeTransaction) → FileSystem → Prop}
    (hnone : fs journalPath = none → Q (.ok none) fs)
    (hsome : ∀ raw tx, fs journalPath = some raw → parseTransaction (decodeText raw) = some tx →
      (fs livePath = some tx.previous ∨ fs livePath = some tx.candidate) → Q (.ok (some tx)) fs) :
    wp readSetting readTransaction Q fs := by
  unfold readTransaction
  rw [wp_bind]
  refine wp_diskExists ?_
  rw [andThen_ok]
  cases hjournal : fs journalPath with
  | none => exact hnone hjournal
  | some raw =>
    obtain ⟨tx, hparse, hlive⟩ := hok.journal raw hjournal
    simp only [Option.isSome_some, if_true]
    rw [wp_bind, Py.except, wp_tryCatch]
    refine wp_diskReadText hjournal ?_
    rw [orElse_ok, andThen_ok, hparse]
    exact hsome raw tx hjournal hparse hlive

theorem wp_validateInterruptedLocked {fs : FileSystem} (hok : JournalOk fs)
    {Q : Except Exc Bool → FileSystem → Prop} (h : ∀ b, Q (.ok b) fs) :
    wp readSetting validateInterruptedLocked Q fs := by
  unfold validateInterruptedLocked
  rw [wp_bind]
  refine wp_readTransaction hok (fun _ ↦ h false) fun _ tx _ _ hlive ↦ ?_
  have hread : ∃ live, fs livePath = some live ∧ (live = tx.previous ∨ live = tx.candidate) := by
    rcases hlive with hlive | hlive
    · exact ⟨_, hlive, .inl rfl⟩
    · exact ⟨_, hlive, .inr rfl⟩
  obtain ⟨live, hlive, hcontent⟩ := hread
  simp only [andThen_ok]
  rw [wp_bind]
  refine wp_diskExists ?_
  simp only [andThen_ok, hlive, Option.isSome_some, if_true]
  rw [wp_bind]
  refine wp_diskReadText hlive ?_
  rw [andThen_ok, decodeText_eq_self (hok.live live hlive).noCarriageReturn, if_pos hcontent]
  exact h true

/-- The errors of a recovery that finds the files in disorder. -/
def Exc.RecoveryRefused : Exc → Prop
  | .edgeRuntime failure => failure.code = "EDGE_CONFIG_CHANGED_DURING_RECOVERY"
      ∨ failure.code = "EDGE_TRANSACTION_JOURNAL_INVALID"
  | _ => False

/-- The outcome of a program that is not refused. -/
def NotRefused {α : Type} : Except Exc α → FileSystem → Prop
  | .ok _, _ => True
  | .error x, _ => ¬x.RecoveryRefused

/-- An operation on directories or on the lock, which only fails as the operating system does. -/
theorem wp_diskStep {o : FileOp} {fs : FileSystem} {Q : Except Exc o.Ans → FileSystem → Prop}
    (hok : ∀ a, Q (.ok a) fs) (herror : Q (.error .osError) fs)
    (ho : o.ReadOnly := by trivial) (hraises : ∀ x, o.Raises x → x = .osError := by exact fun _ ↦ id) :
    wp readSetting (Py.file o) Q fs := by
  unfold Py.file
  rw [wp_op_alone]
  rintro r fs' ⟨h, -⟩
  obtain rfl := h.readOnly ho
  cases r with
  | error x =>
    obtain rfl := hraises x h.raises
    exact ⟨trivial, herror⟩
  | ok a => exact ⟨trivial, hok a⟩

theorem wp_recoverInterrupted {fs : FileSystem} (hok : JournalOk fs) :
    wp readSetting recoverInterrupted NotRefused fs := by
  have hos : ¬Exc.osError.RecoveryRefused := id
  unfold recoverInterrupted ensureEdgeDirectory withLock
  rw [wp_bind, wp_bind]
  refine wp_diskStep (fun _ ↦ ?_) hos
  rw [andThen_ok, wp_bind]
  refine wp_diskStep (fun found ↦ ?_) hos
  cases found with
  | false =>
    rintro (h | h)
    all_goals exact absurd h (by decide)
  | true =>
  rw [andThen_ok]
  refine wp_diskStep (fun _ ↦ ?_) hos
  rw [andThen_ok, wp_bind]
  refine wp_diskStep (fun _ ↦ ?_) hos
  rw [andThen_ok, wp_tryFinally]
  -- the lock file is closed, whatever came before
  have hclose : ∀ r : Except Exc Bool, NotRefused r fs → wp readSetting (Py.file .closeLock)
      (andThen readSetting (fun _ ↦ .ofExcept r) NotRefused) fs := fun r hr ↦
    wp_diskStep (fun _ ↦ by rwa [andThen_ok, wp_ofExcept]) hos
  rw [wp_bind]
  refine wp_diskStep (fun _ ↦ ?_) (hclose _ hos)
  rw [andThen_ok, wp_bind]
  refine wp_diskStep (fun _ ↦ ?_) (hclose _ hos)
  rw [andThen_ok, wp_tryFinally]
  refine wp_validateInterruptedLocked hok fun b ↦ ?_
  exact wp_diskStep (fun _ ↦ hclose (.ok b) trivial) (hclose _ hos)

/-- **The journal can always be recovered.** Whatever calls and crashes came before, a journal that
exists is accepted and the live file is one of its two contents, so neither a recovery nor the check
at the start of `apply` finds the files in disorder. -/
theorem EdgeReachable.recoverable {fs : FileSystem} (h : EdgeReachable fs) :
    (∀ raw, fs journalPath = some raw → ∃ tx,
      (fs livePath = some tx.previous ∨ fs livePath = some tx.candidate)
      ∧ ∀ t r fs', Ends diskEnv readTransaction fs t r fs' → r = .ok (some tx))
    ∧ (∀ t r fs', Ends diskEnv validateInterruptedLocked fs t r fs' → NotRefused r fs')
    ∧ ∀ t r fs', Ends diskEnv recoverInterrupted fs t r fs' → NotRefused r fs' := by
  have hok := h.journalOk
  refine ⟨fun raw hraw ↦ ?_, fun t r fs' hend ↦ ?_, fun t r fs' hend ↦ ?_⟩
  · obtain ⟨tx, hparse, hlive⟩ := hok.journal raw hraw
    refine ⟨tx, hlive, fun t r fs' hend ↦ ?_⟩
    have hread : wp readSetting readTransaction (fun r _ ↦ r = .ok (some tx)) fs := by
      refine wp_readTransaction hok (fun hnone ↦ ?_) fun raw' tx' hraw' hparse' _ ↦ ?_
      · simp [hnone] at hraw
      · obtain rfl : raw = raw' := Option.some.inj (hraw.symm.trans hraw')
        rw [← hparse', hparse]
    have hresult := wp_ends hread hend
    exact hresult
  · exact wp_ends (wp_validateInterruptedLocked hok fun _ ↦ trivial) hend
  · exact wp_ends (wp_recoverInterrupted hok) hend

/-! ## A run that is stopped -/

/-- A manager with short names. -/
def sampleManager : EdgeConfigManager where
  runner := { executable := "docker", intervals := 1, pathText := fun _ ↦ "file" }
  probes := 1
  managementHostname := "heimdall.localhost"
  nginxImage := "nginx"
  edgeNetworkName := "edge"
  edgeContainerName := "edge"
  managementHostname_valid := by decide
  edgeNetworkName_valid := by decide
  edgeContainerName_valid := by decide

/-- The output of a command on a healthy installation. -/
def sampleStdout : Command → String
  | .networkInspectLabels _ =>
    "\x7b\"heimdall.managed\":\"true\",\"heimdall.kind\":\"edge-network\"\x7d"
  | .inspectEdge _ =>
    "\x7b\"labels\":\x7b\"heimdall.managed\":\"true\",\"heimdall.kind\":\"edge-gateway\"\x7d" ++
      ",\"image\":\"nginx\",\"running\":true,\"networks\":\x7b\"edge\":null\x7d\x7d"
  | _ => "text"

/-- The answers of the world: everything goes well. -/
def sampleReply : (o : Op) → Except Exc (Ans o)
  | .timeLeft => .ok true
  | .launch _ => .ok ()
  | .poll c => .ok (.exited { returncode := 0, stdout := sampleStdout c })
  | .http _ => .ok { status := 200, management := some "true" }
  | .callback _ => .ok ()
  | _ => .error .other

/-- A live file without a journal. -/
def sampleFiles : FileSystem := fun p ↦ if p = livePath then some "# old\n" else none

/-- The live file cannot be replaced. -/
def sampleCrash : Handler ℕ FileSystem Op Ans Exc
  | n, fs, .file o =>
    let p := if ∃ source ∈ o.writes, o = .replace source livePath then (.error .osError, fs)
      else o.perform fs n
    (n + 1, p)
  | n, fs, o => (n, sampleReply o, fs)

theorem sampleCrash_step (n : ℕ) (fs : FileSystem) (o : Op) :
    diskEnv fs o (sampleCrash n fs o).2.1 (sampleCrash n fs o).2.2 := by
  cases o
  case file o =>
    by_cases ho : ∃ source ∈ o.writes, o = .replace source livePath
    · obtain ⟨source, -, rfl⟩ := ho
      have hcrash : (sampleCrash n fs (.file (.replace source livePath))).2 = (.error .osError, fs) :=
        if_pos ⟨source, List.mem_cons_self, rfl⟩
      rw [hcrash]
      exact ⟨⟨rfl, rfl⟩, False.elim⟩
    · have hcrash : (sampleCrash n fs (.file o)).2 = o.perform fs n := if_neg ho
      rw [hcrash]
      refine ⟨o.perform_step fs n, fun hreads hpossible ↦ ?_⟩
      cases o
      case «exists» => trivial
      case readText p =>
        obtain ⟨raw, hraw⟩ := Option.isSome_iff_exists.mp hpossible
        simp [FileOp.perform, hraw, Succeeds]
      all_goals exact hreads.elim
  all_goals exact rfl

/-- The call of the run: no route, and callbacks that let everything pass. -/
def sampleCall : EdgeCall :=
  .apply sampleManager [] none ⟨pure (), pure (), pure ()⟩ false

/-- The root after a call that has written its journal and could not switch the live file. -/
def sampleRoot : FileSystem := (exec sampleCrash sampleCall.program 0 sampleFiles).2.2

/-- The journal that is left there. -/
def sampleJournal : {raw : String // sampleRoot journalPath = some raw} :=
  ⟨(sampleRoot journalPath).get (by decide +kernel), (Option.some_get _).symm⟩

theorem sampleRoot_reachable : EdgeReachable sampleRoot := by
  have hfresh : FreshEdge sampleFiles := by
    refine ⟨rfl, fun text h ↦ ?_⟩
    obtain rfl : "# old\n" = text := Option.some.inj h
    exact ⟨by decide, by decide⟩
  have hcall : sampleCall.Admissible := ⟨fun _ h ↦ (by cases h), trivial, trivial, trivial⟩
  exact ⟨sampleFiles, hfresh, .single ⟨sampleCall, hcall, _, _, exec_ends sampleCrash_step _ 0 _⟩⟩

theorem EdgeReachable.recoverable_sample : ∃ raw tx, sampleRoot journalPath = some raw
    ∧ (sampleRoot livePath = some tx.previous ∨ sampleRoot livePath = some tx.candidate)
    ∧ ∀ t r fs', Ends diskEnv readTransaction sampleRoot t r fs' → r = .ok (some tx) := by
  obtain ⟨raw, hraw⟩ := sampleJournal
  obtain ⟨tx, hlive, hread⟩ := (EdgeReachable.recoverable sampleRoot_reachable).1 raw hraw
  exact ⟨raw, tx, hraw, hlive, hread⟩

end Heimdall
