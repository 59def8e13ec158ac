import Heimdall.Interface

/-!
# Running commands

`SubprocessCommandRunner.run`: start a child process, wait for it in intervals with a heartbeat
between two intervals, and end it when its time is over or when anything is raised meanwhile.

The number of intervals that fit into the timeout of a command is a parameter; it bounds the loop,
which may also be over earlier.
-/

namespace Heimdall

open Effect

/-- The command runner of a worker, with the `docker` executable it is used with. -/
structure CommandRunner where
  executable : String
  /-- How many heartbeat intervals fit into the timeout of a command. -/
  intervals : ℕ
  /-- The text of a path in a command line. -/
  pathText : Path → String

/-- Wait for a process, with a heartbeat after each interval; `none` when its time is over. -/
def awaitExit (c : Command) (heartbeat : Py Unit) : ℕ → Py (Option CommandResult)
  | 0 => pure none
  | n + 1 => do
    match ← Py.poll c with
    | .exited result => pure (some result)
    | .timedOut => pure none
    | .running =>
      heartbeat
      awaitExit c heartbeat n

namespace CommandRunner

variable (runner : CommandRunner)

def run (c : Command) (heartbeat : Py Unit) (check : Bool := true) : Py CommandResult :=
  if (runner.executable :: c.arguments runner.pathText).any String.isEmpty then Py.raise .value
  else do
    (Py.launch c).except fun
      | .osError => some (Py.raise (.commandExecution { returncode := -1, stdout := "" }))
      | _ => none
    let ended ← (awaitExit c heartbeat runner.intervals).tryCatch fun x ↦ do
      let _ ← Py.terminate c
      Py.raise x
    match ended with
    | none =>
      let result ← Py.terminate c
      Py.raise (.commandExecution result)
    | some result =>
      if check && result.returncode != 0 then Py.raise (.commandExecution result) else pure result

/-- `_run_ignored`: a command whose failure is a return code. -/
def runIgnored (c : Command) (heartbeat : Py Unit := pure ()) : Py CommandResult :=
  (runner.run c heartbeat false).except fun
    | .commandExecution _ => some (pure { returncode := -1, stdout := "" })
    | _ => none

end CommandRunner

/-! ## Tracked exceptions -/

variable {σ : Type} {M : Setting σ Op Ans Exc} {I J : σ → Prop} {soft hard : Exc → Prop}

theorem Py.Tracks.except {α : Type} {soft' hard' : Exc → Prop} {p : Py α}
    {h : Exc → Option (Py α)} (hp : Tracks M I J soft' hard' p)
    (hcaught : ∀ x q, h x = some q → soft' x → Tracks M I J soft hard q)
    (hpassed : ∀ x, h x = none → soft' x → soft x)
    (hhard : ∀ x, hard' x → h x = none ∧ hard x) : Tracks M I J soft hard (p.except h) := by
  refine hp.tryCatch (fun x hx ↦ ?_) fun x s hx hs ↦ ?_
  · cases hq : h x with
    | none => exact .raise (hpassed x hq hx)
    | some q => exact hcaught x q hq hx
  · obtain ⟨hnone, hx'⟩ := hhard x hx
    rw [hnone]
    exact .inr ⟨hx', hs⟩

/-- The operations of commands, probes and the clock: they leave files and tables alone. -/
def Op.Quiet : Op → Prop
  | .now | .timeLeft | .launch _ | .poll _ | .terminate _ | .http _ => True
  | _ => False

/-- How the quiet operations fare under two assertions. A child process that cannot be started and
a request that fails in the operating system are handled on the spot. -/
structure QuietOps (M : Setting σ Op Ans Exc) (I J : σ → Prop) (soft hard : Exc → Prop) : Prop where
  launch : ∀ c, M.Tracks I J (fun x ↦ x = .osError ∨ soft x) (fun x ↦ hard x ∧ x ≠ .osError)
    (.launch c)
  poll : ∀ c, M.Tracks I J soft hard (.poll c)
  terminate : ∀ c, M.Tracks I J soft hard (.terminate c)
  /-- A child process that is ended while a hard exception is on its way. -/
  terminate' : ∀ c s s₁ r s₂, J s → M.rely s s₁ → M.step s₁ (.terminate c) r s₂ →
    M.guar s₁ (.terminate c) r s₂ ∧ ((∃ result, r = .ok result) ∧ J s₂
      ∨ ∃ x, r = .error x ∧ (soft x ∧ I s₂ ∨ hard x ∧ J s₂))
  http : ∀ t, M.Tracks I J (fun x ↦ x = .osError ∨ soft x) (fun x ↦ hard x ∧ x ≠ .osError)
    (.http t)
  timeLeft : M.Tracks I J soft hard .timeLeft
  hard_ne : ∀ x result, hard x → x ≠ .commandExecution result

theorem QuietOps.of_keeps (h : ∀ o : Op, o.Quiet → M.Keeps I o) :
    QuietOps M I I (fun _ ↦ True) fun _ ↦ False where
  launch c := fun s s₁ r s₂ hs hrely hstep ↦ by
    obtain ⟨hg, hI⟩ := h (.launch c) trivial s s₁ r s₂ hs hrely hstep
    refine ⟨hg, ?_⟩
    cases r with
    | ok a => exact hI
    | error x => exact .inl ⟨.inr trivial, hI⟩
  poll c := (h (.poll c) trivial).tracks
  terminate c := (h (.terminate c) trivial).tracks
  terminate' c s s₁ r s₂ hs hrely hstep := by
    obtain ⟨hg, hI⟩ := h (.terminate c) trivial s s₁ r s₂ hs hrely hstep
    refine ⟨hg, ?_⟩
    cases r with
    | ok a => exact .inl ⟨⟨a, rfl⟩, hI⟩
    | error x => exact .inr ⟨x, rfl, .inl ⟨trivial, hI⟩⟩
  http t := fun s s₁ r s₂ hs hrely hstep ↦ by
    obtain ⟨hg, hI⟩ := h (.http t) trivial s s₁ r s₂ hs hrely hstep
    refine ⟨hg, ?_⟩
    cases r with
    | ok a => exact hI
    | error x => exact .inl ⟨.inr trivial, hI⟩
  timeLeft := (h .timeLeft trivial).tracks
  hard_ne _ _ := False.elim

/-- With one assertion the two classes may be joined. -/
theorem QuietOps.join (h : QuietOps M I I soft hard) {soft' : Exc → Prop}
    (hsoft : ∀ x, soft x ∨ hard x → soft' x) : QuietOps M I I soft' fun _ ↦ False := by
  have hjoin : ∀ {o : Op} {soft₁ hard₁ soft₁' : Exc → Prop}, M.Tracks I I soft₁ hard₁ o →
      (∀ x, soft₁ x ∨ hard₁ x → soft₁' x) → ∀ hard₂, M.Tracks I I soft₁' hard₂ o := by
    intro o soft₁ hard₁ soft₁' ho hx hard₂ s s₁ r s₂ hs hrely hstep
    obtain ⟨hg, hr⟩ := ho s s₁ r s₂ hs hrely hstep
    refine ⟨hg, ?_⟩
    cases r with
    | ok a => exact hr
    | error x => exact .inl (hr.elim (fun h ↦ ⟨hx x (.inl h.1), h.2⟩) fun h ↦ ⟨hx x (.inr h.1), h.2⟩)
  have hos : ∀ x, (x = .osError ∨ soft x) ∨ hard x ∧ x ≠ .osError → x = .osError ∨ soft' x := by
    rintro x ((rfl | hx) | ⟨hx, -⟩)
    exacts [.inl rfl, .inr (hsoft x (.inl hx)), .inr (hsoft x (.inr hx))]
  refine ⟨fun c ↦ hjoin (h.launch c) hos _, fun c ↦ hjoin (h.poll c) hsoft _,
    fun c ↦ hjoin (h.terminate c) hsoft _, fun c s s₁ r s₂ hs hrely hstep ↦ ?_,
    fun t ↦ hjoin (h.http t) hos _, hjoin h.timeLeft hsoft _, fun _ _ ↦ False.elim⟩
  obtain ⟨hg, hr | ⟨x, rfl, hx⟩⟩ := h.terminate' c s s₁ r s₂ hs hrely hstep
  · exact ⟨hg, .inl hr⟩
  · exact ⟨hg, .inr ⟨x, rfl, .inl (hx.elim (fun h ↦ ⟨hsoft x (.inl h.1), h.2⟩)
      fun h ↦ ⟨hsoft x (.inr h.1), h.2⟩)⟩⟩

/-- A failed command, or an exception of another class. -/
def Failed (soft : Exc → Prop) (x : Exc) : Prop := (∃ result, x = .commandExecution result) ∨ soft x

section Quiet

variable (hquiet : QuietOps M I J soft hard) {heartbeat : Py Unit}
  (hh : Tracks M I J soft hard heartbeat)
include hquiet

/-- Start a child process, or fail as a command that could not run. -/
theorem QuietOps.tracks_launch (c : Command) : Tracks M I J (Failed soft) hard ((Py.launch c).except fun
    | .osError => some (Py.raise (.commandExecution { returncode := -1, stdout := "" }))
    | _ => none) := by
  refine Py.Tracks.except (.op (hquiet.launch c)) ?_ ?_ ?_
  · intro x q hq hx
    split at hq <;> cases hq
    exact .raise (.inl ⟨_, rfl⟩)
  · intro x hnone hx
    rcases hx with rfl | hx
    · cases hnone
    · exact .inr hx
  · rintro x ⟨hx, hne⟩
    refine ⟨?_, hx⟩
    cases x
    case osError => exact absurd rfl hne
    all_goals rfl

/-- End a child process and raise again. -/
theorem QuietOps.terminateAndRaise {α : Type} (c : Command) (x : Exc) (s : σ)
    (hx : soft x ∧ I s ∨ hard x ∧ J s) :
    wp M (do
      let _ ← Py.terminate c
      Py.raise x : Py α) (fun r s' ↦ ∃ x', r = .error x' ∧ (soft x' ∧ I s' ∨ hard x' ∧ J s')) s := by
  rw [wp_bind]
  rcases hx with ⟨hx, hs⟩ | ⟨hx, hs⟩
  · refine wp_mono (Tracks.op (hquiet.terminate c) s hs) fun r s' hr ↦ ?_
    cases r with
    | ok a => exact ⟨x, rfl, .inl ⟨hx, hr⟩⟩
    | error x' => exact ⟨x', rfl, hr⟩
  · unfold Py.terminate
    rw [wp_op]
    intro s₁ hrely r s₂ hstep
    obtain ⟨hg, ⟨⟨result, rfl⟩, hJ⟩ | ⟨x', rfl, hx'⟩⟩ := hquiet.terminate' c s s₁ r s₂ hs hrely hstep
    · exact ⟨hg, x, rfl, .inr ⟨hx, hJ⟩⟩
    · exact ⟨hg, x', rfl, hx'⟩

include hh

theorem tracks_awaitExit (c : Command) (n : ℕ) :
    Tracks M I J soft hard (awaitExit c heartbeat n) := by
  induction n with
  | zero => exact .pure _
  | succ n ih =>
    refine (Tracks.op (hquiet.poll c)).bind fun r ↦ ?_
    cases r with
    | running => exact hh.bind fun _ ↦ ih
    | timedOut => exact .pure _
    | exited result => exact .pure _

theorem CommandRunner.tracks_run (runner : CommandRunner) (c : Command)
    (hempty : soft .value ∨ (runner.executable :: c.arguments runner.pathText).any String.isEmpty
      = false) (check : Bool := true) :
    Tracks M I J (Failed soft) hard (runner.run c heartbeat check) := by
  have hfailed : ∀ x, soft x → Failed soft x := fun _ ↦ .inr
  have hterm : Tracks M I J (Failed soft) hard (Py.terminate c) :=
    (Tracks.op (hquiet.terminate c)).mono hfailed
  unfold CommandRunner.run
  split
  · rename_i h
    rcases hempty with hvalue | hempty
    · exact .raise (.inr hvalue)
    · rw [hempty] at h
      cases h
  have hraise : ∀ x s, (soft x ∧ I s ∨ hard x ∧ J s) → wp M (do
      let _ ← Py.terminate c
      Py.raise x : Py (Option CommandResult)) (Tracked I J (Failed soft) hard) s := fun x s hx ↦
    wp_mono (hquiet.terminateAndRaise c x s hx) fun r s' ⟨x', hr, hx'⟩ ↦ by
      rw [hr]
      exact hx'.imp_left fun h ↦ ⟨.inr h.1, h.2⟩
  refine (hquiet.tracks_launch c).bind fun _ ↦ Tracks.bind ((tracks_awaitExit hquiet hh c _).tryCatch
    (fun x hx s hs ↦ hraise x s (.inl ⟨hx, hs⟩)) fun x s hx hs ↦ hraise x s (.inr ⟨hx, hs⟩))
    fun ended ↦ ?_
  cases ended with
  | none => exact hterm.bind fun _ ↦ .raise (.inl ⟨_, rfl⟩)
  | some result => exact .ite (.raise (.inl ⟨_, rfl⟩)) (.pure _)

end Quiet

end Heimdall
