import Heimdall.Runtime.LogStream

/-!
# The output of a command, line by line

`_SubprocessCommandLineStream` reads each of the two outputs of a process in a thread of its own
(`readLines`), which puts a line after the other into a bounded queue and at last the news that it is
done. `receive` takes them out again.

## What a line is

A line is read with its line feed, and one byte more is read than is retained. So the line feed
counts for the flag that says whether a line was cut, and a last line without one always counts as
cut (`readLines_eq`). `readLines_specified_iff` says for which outputs the flags are what they are
meant to be.

## What is received

The queue keeps the order in which the readers put their lines, and both the lines and the news of
the readers pass through it. So what was received and what is queued is what was put, and when the
news of both readers was received nothing is left (`CommandStream.Kept`). `received_eq_offered` is
the result for every reachable state.
-/

namespace Heimdall

/-! ## Lines -/

/-- The lines of an output with their line feeds; `line` is what is already known of the first. -/
def byteLinesFrom (line : List UInt8) : List UInt8 → List (List UInt8)
  | [] => if line.isEmpty then [] else [line]
  | b :: input => if b = lineFeed then (line ++ [b]) :: byteLinesFrom [] input
      else byteLinesFrom (line ++ [b]) input

def byteLines (input : List UInt8) : List (List UInt8) := byteLinesFrom [] input

variable {content rest input line : List UInt8} {maxLineBytes : ℕ} {stream : CommandOutputStream}

theorem byteLinesFrom_line (h : lineFeed ∉ content) (line rest : List UInt8) :
    byteLinesFrom line (content ++ lineFeed :: rest)
      = (line ++ content ++ [lineFeed]) :: byteLines rest := by
  induction content generalizing line with
  | nil => simp [byteLinesFrom, byteLines]
  | cons b content ih =>
    rw [List.mem_cons, not_or] at h
    rw [List.cons_append, byteLinesFrom, if_neg (Ne.symm h.1), ih h.2]
    simp

theorem byteLinesFrom_last (h : lineFeed ∉ content) (line : List UInt8) :
    byteLinesFrom line content = if (line ++ content).isEmpty then [] else [line ++ content] := by
  induction content generalizing line with
  | nil => simp [byteLinesFrom]
  | cons b content ih =>
    rw [List.mem_cons, not_or] at h
    rw [byteLinesFrom, if_neg (Ne.symm h.1), ih h.2]
    simp

/-- The lines are all of the output. -/
theorem flatten_byteLinesFrom (line input : List UInt8) :
    (byteLinesFrom line input).flatten = line ++ input := by
  induction input generalizing line with
  | nil =>
    rw [byteLinesFrom]
    split
    next h =>
      rw [List.isEmpty_iff.mp h]
      rfl
    next => simp
  | cons b input ih =>
    rw [byteLinesFrom]
    split <;> simp [ih]

theorem flatten_byteLines (input : List UInt8) : (byteLines input).flatten = input :=
  flatten_byteLinesFrom [] input

/-! ## What is read of a line -/

/-- What the reader offers of a line. -/
def offeredLine (maxLineBytes : ℕ) (stream : CommandOutputStream) (line : List UInt8) :
    CommandOutputLine :=
  ⟨stream, stripLine (line.take maxLineBytes),
    decide (line.getLast? = some lineFeed → maxLineBytes < line.length)⟩

/-- What is meant to be offered of a line: it was cut when something is missing that is not the end
of the line. -/
def specifiedLine (maxLineBytes : ℕ) (stream : CommandOutputStream) (line : List UInt8) :
    CommandOutputLine :=
  ⟨stream, stripLine (line.take maxLineBytes), decide (maxLineBytes < (stripLine line).length)⟩

/-- **One item for each line**, in order. -/
theorem readLines_eq (maxLineBytes : ℕ) (stream : CommandOutputStream) (input : List UInt8) :
    readLines maxLineBytes stream input
      = (byteLines input).map (offeredLine maxLineBytes stream) := by
  induction hlen : input.length using Nat.strong_induction_on generalizing input with
  | _ k ih =>
    subst hlen
    by_cases hmem : lineFeed ∈ input
    · obtain ⟨content, rest, rfl, hcontent⟩ := List.eq_append_cons_of_mem hmem
      have hrest : rest.length < (content ++ lineFeed :: rest).length := by
        rw [List.length_append, List.length_cons]
        omega
      rw [byteLines, byteLinesFrom_line hcontent, List.nil_append, readLines_line hcontent,
        ih _ hrest rest rfl, List.map_cons]
      congr 1
      have hpayload : captureLine maxLineBytes content
          = stripLine ((content ++ [lineFeed]).take maxLineBytes) := by
        rw [captureLine]
        by_cases hle : maxLineBytes ≤ content.length
        · rw [List.take_append_of_le_length hle]
        · have hlt : content.length + 1 ≤ maxLineBytes := Nat.lt_of_not_le hle
          rw [List.take_of_length_le (Nat.le_of_succ_le hlt), List.take_of_length_le (by simpa using hlt),
            stripLine_append_lineFeed]
      rw [offeredLine, hpayload]
      simp [Nat.lt_succ_iff]
    · rw [byteLines, byteLinesFrom_last hmem, readLines_last hmem, List.nil_append]
      split
      · rfl
      · have hlast : input.getLast? ≠ some lineFeed := getLast?_ne_lineFeed hmem
        rw [List.map_singleton, offeredLine, captureLine]
        simp [hlast]

/-- The flag of a line is right: with its line feed the line is within the limit, or it is beyond the
limit without the end of the line. -/
def FlagRight (maxLineBytes : ℕ) (line : List UInt8) : Prop :=
  line.getLast? = some lineFeed ∧ line.length ≤ maxLineBytes
    ∨ maxLineBytes < (stripLine line).length

instance : Decidable (FlagRight maxLineBytes line) := inferInstanceAs (Decidable (_ ∧ _ ∨ _))

theorem offeredLine_eq_specifiedLine :
    offeredLine maxLineBytes stream line = specifiedLine maxLineBytes stream line
      ↔ FlagRight maxLineBytes line := by
  have hstrip : (stripLine line).length ≤ line.length := (stripLine_isPrefix line).length_le
  have hflags : offeredLine maxLineBytes stream line = specifiedLine maxLineBytes stream line
      ↔ ((line.getLast? = some lineFeed → maxLineBytes < line.length)
        ↔ maxLineBytes < (stripLine line).length) := by
    simp only [offeredLine, specifiedLine, CommandOutputLine.mk.injEq, true_and, decide_eq_decide]
  rw [hflags, FlagRight]
  constructor
  · intro h
    by_cases hcut : maxLineBytes < (stripLine line).length
    · exact .inr hcut
    · obtain ⟨hend, hlength⟩ := Classical.not_imp.mp (h.not.mpr hcut)
      exact .inl ⟨hend, not_lt.mp hlength⟩
  · rintro (⟨hend, hlength⟩ | hcut)
    · constructor
      · intro h
        exact absurd (h hend) (not_lt.mpr hlength)
      · intro hcut
        omega
    · exact ⟨fun _ ↦ hcut, fun _ _ ↦ hcut.trans_le hstrip⟩

/-- **Which outputs are read as they should be.** -/
theorem readLines_specified_iff (maxLineBytes : ℕ) (stream : CommandOutputStream)
    (input : List UInt8) :
    readLines maxLineBytes stream input = (byteLines input).map (specifiedLine maxLineBytes stream)
      ↔ ∀ line ∈ byteLines input, FlagRight maxLineBytes line := by
  rw [readLines_eq, List.map_inj_left]
  exact forall₂_congr fun line _ ↦ offeredLine_eq_specifiedLine

/-- A line of five bytes is said to be cut where five bytes are retained. -/
theorem readLines_not_specified : readLines 5 .stdout [104, 101, 108, 108, 111, 10]
    ≠ (byteLines [104, 101, 108, 108, 111, 10]).map (specifiedLine 5 .stdout) := by
  rw [readLines_eq]
  decide

/-! ## The queue -/

inductive QueueItem where
  | line (output : CommandOutputLine)
  | readerDone (stream : CommandOutputStream)
deriving DecidableEq

def streamQueueCapacity : ℕ := 128

/-- Where a call of `receive` stands. -/
inductive CommandReceive where
  | idle
  /-- Before the check for the end of both streams. -/
  | checking
  /-- In `get`. -/
  | getting
deriving DecidableEq

/-- A command stream that is not closed, with a record of what the readers put and of the results of
`receive`. -/
structure CommandStream where
  queue : List QueueItem
  doneStreams : List CommandOutputStream
  phase : CommandReceive
  returned : List StreamItem
  offered : List CommandOutputLine
  finished : List CommandOutputStream
deriving DecidableEq

namespace CommandStream

def start : CommandStream := ⟨[], [], .idle, [], [], []⟩

/-- A reader puts a line, or the news that it is done. On a full queue it tries again. -/
inductive ReaderStep : CommandStream → CommandStream → Prop
  | offer (s : CommandStream) (line : CommandOutputLine) (hruns : line.stream ∉ s.finished)
    (hroom : s.queue.length < streamQueueCapacity) :
    ReaderStep s { s with queue := s.queue ++ [.line line], offered := s.offered ++ [line] }
  | readerDone (s : CommandStream) (stream : CommandOutputStream) (hruns : stream ∉ s.finished)
    (hroom : s.queue.length < streamQueueCapacity) :
    ReaderStep s
      { s with queue := s.queue ++ [.readerDone stream], finished := s.finished ++ [stream] }

/-- `_done_streams.add` -/
def addDone (stream : CommandOutputStream) (done : List CommandOutputStream) :
    List CommandOutputStream := if stream ∈ done then done else done ++ [stream]

/-- A step of a call of `receive`. `get` fails with `Empty` only when there is nothing to get, and
any return code may be found at the end. -/
inductive ReceiveStep : CommandStream → CommandStream → Prop
  | call (s : CommandStream) (timeoutSeconds : ℚ) (hidle : s.phase = .idle)
    (htimeout : 0 < timeoutSeconds) : ReceiveStep s { s with phase := .checking }
  | check (s : CommandStream) (hphase : s.phase = .checking)
    (hopen : ¬ (s.doneStreams.length = 2 ∧ s.queue = [])) : ReceiveStep s { s with phase := .getting }
  | checkEnded (s : CommandStream) (returncode : Int) (hphase : s.phase = .checking)
    (hdone : s.doneStreams.length = 2) (hqueue : s.queue = []) :
    ReceiveStep s { s with phase := .idle, returned := s.returned ++ [.ended returncode] }
  | getLine (s : CommandStream) (line : CommandOutputLine) (rest : List QueueItem)
    (hphase : s.phase = .getting) (hqueue : s.queue = .line line :: rest) :
    ReceiveStep s { s with phase := .idle, queue := rest, returned := s.returned ++ [.line line] }
  | getDone (s : CommandStream) (stream : CommandOutputStream) (rest : List QueueItem)
    (hphase : s.phase = .getting) (hqueue : s.queue = .readerDone stream :: rest) :
    ReceiveStep s
      { s with phase := .checking, queue := rest, doneStreams := addDone stream s.doneStreams }
  | emptyEnded (s : CommandStream) (returncode : Int) (hphase : s.phase = .getting)
    (hqueue : s.queue = []) (hdone : s.doneStreams.length = 2) :
    ReceiveStep s { s with phase := .idle, returned := s.returned ++ [.ended returncode] }
  | empty (s : CommandStream) (hphase : s.phase = .getting) (hqueue : s.queue = [])
    (hopen : s.doneStreams.length ≠ 2) :
    ReceiveStep s { s with phase := .idle, returned := s.returned ++ [.idle] }

/-- A step of one of the three threads. A call whose timeout is not positive raises and changes
nothing. -/
inductive Step : CommandStream → CommandStream → Prop
  | reader {s s' : CommandStream} (h : ReaderStep s s') : Step s s'
  | receive {s s' : CommandStream} (h : ReceiveStep s s') : Step s s'
  | invalid (s : CommandStream) (timeoutSeconds : ℚ) (hidle : s.phase = .idle)
    (htimeout : timeoutSeconds ≤ 0) : Step s s

def Reachable (s : CommandStream) : Prop := Relation.ReflTransGen Step start s

/-! ## What is kept -/

def queuedLines (queue : List QueueItem) : List CommandOutputLine :=
  queue.filterMap fun | .line line => some line | .readerDone _ => none

def queuedDone (queue : List QueueItem) : List CommandOutputStream :=
  queue.filterMap fun | .line _ => none | .readerDone stream => some stream

/-- The lines among the results of `receive`. -/
def received (returned : List StreamItem) : List CommandOutputLine :=
  returned.filterMap fun | .line line => some line | _ => none

section Simp

variable (queue : List QueueItem) (returned : List StreamItem) (line : CommandOutputLine)
  (stream : CommandOutputStream) (returncode : Int)

@[simp] theorem queuedLines_append (queue' : List QueueItem) :
    queuedLines (queue ++ queue') = queuedLines queue ++ queuedLines queue' :=
  List.filterMap_append

@[simp] theorem queuedDone_append (queue' : List QueueItem) :
    queuedDone (queue ++ queue') = queuedDone queue ++ queuedDone queue' :=
  List.filterMap_append

@[simp] theorem received_append (returned' : List StreamItem) :
    received (returned ++ returned') = received returned ++ received returned' :=
  List.filterMap_append

@[simp] theorem queuedLines_nil : queuedLines [] = [] := rfl

@[simp] theorem queuedDone_nil : queuedDone [] = [] := rfl

@[simp] theorem received_nil : received [] = [] := rfl

@[simp] theorem queuedLines_line : queuedLines (.line line :: queue) = line :: queuedLines queue :=
  rfl

@[simp] theorem queuedLines_readerDone :
    queuedLines (.readerDone stream :: queue) = queuedLines queue := rfl

@[simp] theorem queuedDone_line : queuedDone (.line line :: queue) = queuedDone queue := rfl

@[simp] theorem queuedDone_readerDone :
    queuedDone (.readerDone stream :: queue) = stream :: queuedDone queue := rfl

@[simp] theorem received_line : received (.line line :: returned) = line :: received returned := rfl

@[simp] theorem received_idle : received (.idle :: returned) = received returned := rfl

@[simp] theorem received_ended : received (.ended returncode :: returned) = received returned := rfl

end Simp

/-- What holds of a stream at any time: the lines and the news of the readers keep their order, and
the end is only told when nothing is left. -/
structure Kept (s : CommandStream) : Prop where
  lines : received s.returned ++ queuedLines s.queue = s.offered
  done : s.doneStreams ++ queuedDone s.queue = s.finished
  once : s.finished.Nodup
  ended : ∀ before returncode after, s.returned = before ++ .ended returncode :: after →
    (∀ stream, stream ∈ s.finished) ∧ received before = s.offered

variable {s s' : CommandStream} {stream : CommandOutputStream}

theorem Kept.initial : Kept start where
  lines := rfl
  done := rfl
  once := List.nodup_nil
  ended before returncode after h := by simp [start] at h

/-- The news of a reader is new. -/
theorem Kept.addDone_eq {rest : List QueueItem} (h : Kept s)
    (hqueue : s.queue = .readerDone stream :: rest) :
    addDone stream s.doneStreams = s.doneStreams ++ [stream] := by
  have hnodup : (s.doneStreams ++ stream :: queuedDone rest).Nodup := by
    have hdone := h.done
    rw [hqueue, queuedDone_readerDone] at hdone
    rw [hdone]
    exact h.once
  have hnew : stream ∉ s.doneStreams := fun hmem ↦
    (List.nodup_append.mp hnodup).2.2 stream hmem stream List.mem_cons_self rfl
  rw [addDone, if_neg hnew]

/-- Two streams that are done are all there are. -/
theorem Kept.all_finished (h : Kept s) (hlength : s.doneStreams.length = 2) :
    ∀ stream, stream ∈ s.finished := by
  have hnodup := h.once
  rw [← h.done] at hnodup ⊢
  obtain ⟨a, b, hab⟩ := List.length_eq_two.mp hlength
  rw [hab] at hnodup ⊢
  have hne : a ≠ b := by
    rintro rfl
    simp at hnodup
  intro stream
  cases a <;> cases b <;> cases stream <;> simp at hne ⊢

/-- An end among the results is the last result, or one from before. -/
theorem Kept.ended_before {item : StreamItem} {before after : List StreamItem} {returncode : Int}
    (h : Kept s) (heq : s.returned ++ [item] = before ++ .ended returncode :: after) :
    item = .ended returncode ∧ s.returned = before
      ∨ (∀ stream, stream ∈ s.finished) ∧ received before = s.offered := by
  obtain rfl | ⟨after, last, rfl⟩ := after.eq_nil_or_concat
  · obtain ⟨hbefore, hlast⟩ := List.append_inj' heq rfl
    exact .inl ⟨List.singleton_inj.mp hlast, hbefore⟩
  · rw [List.concat_eq_append, ← List.cons_append, ← List.append_assoc] at heq
    exact .inr (h.ended before returncode after (List.append_inj' heq rfl).1)

/-- The end is told. -/
theorem Kept.tell (h : Kept s) (hdone : s.doneStreams.length = 2) (hqueue : s.queue = [])
    (returncode : Int) :
    Kept { s with phase := .idle, returned := s.returned ++ [.ended returncode] } where
  lines := by simpa using h.lines
  done := h.done
  once := h.once
  ended before code after heq := by
    obtain ⟨-, rfl⟩ | hbefore := h.ended_before heq
    · have hlines := h.lines
      rw [hqueue, queuedLines_nil, List.append_nil] at hlines
      exact ⟨h.all_finished hdone, hlines⟩
    · exact hbefore

theorem ReaderStep.kept (hs : ReaderStep s s') (h : Kept s) : Kept s' := by
  cases hs with
  | offer line hruns hroom =>
    refine ⟨?_, ?_, h.once, ?_⟩
    · simp [← h.lines]
    · simp [← h.done]
    · intro before returncode after heq
      exact absurd ((h.ended before returncode after heq).1 _) hruns
  | readerDone stream hruns hroom =>
    refine ⟨?_, ?_, ?_, ?_⟩
    · simp [← h.lines]
    · simp [← h.done]
    · exact List.nodup_append.mpr ⟨h.once, List.nodup_singleton _, by
        rintro a ha b hb rfl
        exact hruns (List.mem_singleton.mp hb ▸ ha)⟩
    · intro before returncode after heq
      exact absurd ((h.ended before returncode after heq).1 _) hruns

theorem ReceiveStep.kept (hs : ReceiveStep s s') (h : Kept s) : Kept s' := by
  cases hs with
  | call timeoutSeconds hidle htimeout => exact ⟨h.lines, h.done, h.once, h.ended⟩
  | check hphase hopen => exact ⟨h.lines, h.done, h.once, h.ended⟩
  | checkEnded returncode hphase hdone hqueue => exact h.tell hdone hqueue returncode
  | getLine line rest hphase hqueue =>
    have hlines := h.lines
    have hdone := h.done
    rw [hqueue] at hlines hdone
    refine ⟨by simpa using hlines, hdone, h.once, ?_⟩
    intro before returncode after heq
    exact (h.ended_before heq).resolve_left fun hitem ↦ nomatch hitem.1
  | getDone stream rest hphase hqueue =>
    have hlines := h.lines
    have hdone := h.done
    rw [hqueue] at hlines hdone
    refine ⟨hlines, ?_, h.once, h.ended⟩
    rw [h.addDone_eq hqueue]
    simpa using hdone
  | emptyEnded returncode hphase hqueue hdone => exact h.tell hdone hqueue returncode
  | empty hphase hqueue hopen =>
    refine ⟨by simpa using h.lines, h.done, h.once, ?_⟩
    intro before returncode after heq
    exact (h.ended_before heq).resolve_left fun hitem ↦ nomatch hitem.1

theorem Step.kept (hs : Step s s') (h : Kept s) : Kept s' := by
  cases hs with
  | reader hs => exact hs.kept h
  | receive hs => exact hs.kept h
  | invalid timeoutSeconds hidle htimeout => exact h

theorem Kept.steps (h : Kept s) (hs : Relation.ReflTransGen Step s s') : Kept s' := by
  induction hs with
  | refl => exact h
  | tail _ hstep ih => exact hstep.kept ih

/-! ## What every call brings -/

/-- Since an earlier time nothing but lines was returned, or all that was put by then. -/
structure Caught (s s' : CommandStream) : Prop where
  offered : s.offered <+: s'.offered
  returned : ∃ more, s'.returned = s.returned ++ more ∧
    (s.offered <+: received s'.returned ∨ (received more).length = more.length)

theorem Caught.refl (s : CommandStream) : Caught s s :=
  ⟨List.prefix_rfl, [], (List.append_nil _).symm, .inr rfl⟩

/-- A result that is no line is told when the queue is empty. -/
theorem Caught.drained {later : CommandStream} (h : Caught s s') (hkept : Kept s')
    (hqueue : s'.queue = []) (item : StreamItem) (hoffered : later.offered = s'.offered)
    (hreturned : later.returned = s'.returned ++ [item]) : Caught s later := by
  obtain ⟨more, hmore, -⟩ := h.returned
  have hlines := hkept.lines
  rw [hqueue, queuedLines_nil, List.append_nil] at hlines
  refine ⟨hoffered ▸ h.offered, more ++ [item], ?_, .inl ?_⟩
  · rw [hreturned, hmore, List.append_assoc]
  · rw [hreturned, received_append, hlines]
    exact h.offered.trans (List.prefix_append _ _)

theorem Caught.step {later : CommandStream} (h : Caught s s') (hkept : Kept s')
    (hs : Step s' later) : Caught s later := by
  obtain ⟨more, hmore, hcaught⟩ := h.returned
  cases hs with
  | reader hs =>
    cases hs with
    | offer line hruns hroom =>
      exact ⟨h.offered.trans (List.prefix_append _ _), more, hmore, hcaught⟩
    | readerDone stream hruns hroom => exact ⟨h.offered, more, hmore, hcaught⟩
  | receive hs =>
    cases hs with
    | call timeoutSeconds hidle htimeout => exact ⟨h.offered, more, hmore, hcaught⟩
    | check hphase hopen => exact ⟨h.offered, more, hmore, hcaught⟩
    | checkEnded returncode hphase hdone hqueue => exact h.drained hkept hqueue _ rfl rfl
    | getLine line rest hphase hqueue =>
      refine ⟨h.offered, more ++ [.line line], ?_, ?_⟩
      · simp [hmore]
      · refine hcaught.imp (fun hprefix ↦ ?_) fun hlength ↦ ?_
        · rw [received_append]
          exact hprefix.trans (List.prefix_append _ _)
        · simp [hlength]
    | getDone stream rest hphase hqueue => exact ⟨h.offered, more, hmore, hcaught⟩
    | emptyEnded returncode hphase hqueue hdone => exact h.drained hkept hqueue _ rfl rfl
    | empty hphase hqueue hopen => exact h.drained hkept hqueue _ rfl rfl
  | invalid timeoutSeconds hidle htimeout => exact h

theorem Kept.caught (h : Kept s) (hs : Relation.ReflTransGen Step s s') : Caught s s' := by
  induction hs with
  | refl => exact Caught.refl s
  | tail hsteps hstep ih => exact ih.step (h.steps hsteps) hstep

/-- As many results as lines were queued are enough for these lines. -/
theorem Kept.delivered (h : Kept s) (hs : Relation.ReflTransGen Step s s') {more : List StreamItem}
    (hmore : s'.returned = s.returned ++ more)
    (hlength : (queuedLines s.queue).length ≤ more.length) :
    s.offered <+: received s'.returned := by
  have hcaught := h.caught hs
  obtain ⟨more', hmore', hreturned⟩ := hcaught.returned
  obtain rfl := List.append_cancel_left (hmore.symm.trans hmore')
  refine hreturned.elim id fun hlines ↦ ?_
  -- Both are prefixes of what was put, and what was received is the longer.
  have hreceived : received s'.returned <+: s'.offered := ⟨_, (h.steps hs).lines⟩
  refine List.prefix_of_prefix_length_le hcaught.offered hreceived ?_
  rw [← h.lines, hmore, received_append, List.length_append, List.length_append, hlines]
  exact Nat.add_le_add_left hlength _

/-! ## The end of a call -/

/-- How many steps a call of `receive` may still take. -/
def callSteps (s : CommandStream) : ℕ :=
  2 * (2 - s.doneStreams.length) + match s.phase with | .idle => 0 | .checking => 2 | .getting => 1

theorem ReaderStep.callSteps_eq (hs : ReaderStep s s') : callSteps s' = callSteps s := by
  cases hs <;> rfl

theorem Kept.length_doneStreams (h : Kept s) : s.doneStreams.length ≤ 2 := by
  have hsub : s.finished ⊆ [.stdout, .stderr] := by
    intro stream _
    cases stream <;> simp
  have hlength := (List.subperm_of_subset h.once hsub).length_le
  rw [← h.done, List.length_append] at hlength
  exact Nat.le_of_add_right_le hlength

theorem ReceiveStep.callSteps_lt (hs : ReceiveStep s s') (h : Kept s) (hphase : s.phase ≠ .idle) :
    callSteps s' < callSteps s := by
  have hkept := (hs.kept h).length_doneStreams
  cases hs with
  | call timeoutSeconds hidle htimeout => exact absurd hidle hphase
  | check hphase hopen => simp [callSteps, hphase]
  | checkEnded returncode hphase hdone hqueue => simp [callSteps, hphase]
  | getLine line rest hphase hqueue => simp [callSteps, hphase]
  | getDone stream rest hphase hqueue =>
    rw [h.addDone_eq hqueue] at hkept
    simp only [List.length_append, List.length_singleton] at hkept
    simp only [callSteps, hphase, h.addDone_eq hqueue, List.length_append, List.length_singleton]
    omega
  | emptyEnded returncode hphase hqueue hdone => simp [callSteps, hphase]
  | empty hphase hqueue hopen => simp [callSteps, hphase]

/-- A call of `receive` can go on. -/
theorem exists_receiveStep (hphase : s.phase ≠ .idle) : ∃ s', ReceiveStep s s' := by
  cases hp : s.phase with
  | idle => exact absurd hp hphase
  | checking =>
    by_cases hend : s.doneStreams.length = 2 ∧ s.queue = []
    · exact ⟨_, .checkEnded s 0 hp hend.1 hend.2⟩
    · exact ⟨_, .check s hp hend⟩
  | getting =>
    match hq : s.queue with
    | [] =>
      by_cases hdone : s.doneStreams.length = 2
      · exact ⟨_, .emptyEnded s 0 hp hq hdone⟩
      · exact ⟨_, .empty s hp hq hdone⟩
    | .line line :: rest => exact ⟨_, .getLine s line rest hp hq⟩
    | .readerDone stream :: rest => exact ⟨_, .getDone s stream rest hp hq⟩

/-- **Nothing is lost between the readers and `receive`**, however their steps follow each other. -/
theorem received_eq_offered (hs : Reachable s) :
    received s.returned ++ queuedLines s.queue = s.offered
    ∧ (∀ before returncode after, s.returned = before ++ .ended returncode :: after →
      (∀ stream, stream ∈ s.finished) ∧ received before = s.offered)
    ∧ (∀ s' more, Relation.ReflTransGen Step s s' → s'.returned = s.returned ++ more →
      (queuedLines s.queue).length ≤ more.length → s.offered <+: received s'.returned)
    ∧ (s.phase ≠ .idle → (∃ s', ReceiveStep s s') ∧ (∀ s', ReceiveStep s s' → callSteps s' < callSteps s)
      ∧ ∀ s', ReaderStep s s' → callSteps s' = callSteps s) := by
  have h := Kept.initial.steps hs
  refine ⟨h.lines, h.ended, fun s' more hsteps hmore ↦ h.delivered hsteps hmore, fun hphase ↦ ?_⟩
  exact ⟨exists_receiveStep hphase, fun s' hstep ↦ hstep.callSteps_lt h hphase,
    fun s' ↦ ReaderStep.callSteps_eq⟩

/-- A line was put, both readers are done, and two calls have returned. -/
def sampleStream : CommandStream :=
  ⟨[], [.stdout, .stderr], .idle, [.line ⟨.stdout, [97], false⟩, .ended 0], [⟨.stdout, [97], false⟩],
    [.stdout, .stderr]⟩

theorem reachable_sampleStream : Reachable sampleStream := by
  let line : CommandOutputLine := ⟨.stdout, [97], false⟩
  have h₁ : Step start ⟨[.line line], [], .idle, [], [line], []⟩ :=
    .reader (.offer start line (by decide) (by decide))
  have h₂ : Step _ ⟨[.line line, .readerDone .stdout], [], .idle, [], [line], [.stdout]⟩ :=
    .reader (.readerDone ⟨[.line line], [], .idle, [], [line], []⟩ .stdout (by decide) (by decide))
  -- From here on the readers are done.
  let mid (queue : List QueueItem) (done : List CommandOutputStream) (phase : CommandReceive)
    (returned : List StreamItem) : CommandStream :=
    ⟨queue, done, phase, returned, [line], [.stdout, .stderr]⟩
  let news : List QueueItem := [.readerDone .stdout, .readerDone .stderr]
  have h₃ : Step _ (mid (.line line :: news) [] .idle []) :=
    .reader (.readerDone ⟨[.line line, .readerDone .stdout], [], .idle, [], [line], [.stdout]⟩ .stderr
      (by decide) (by decide))
  have h₄ : Step _ (mid (.line line :: news) [] .checking []) :=
    .receive (.call (mid (.line line :: news) [] .idle []) 1 rfl zero_lt_one)
  have h₅ : Step _ (mid (.line line :: news) [] .getting []) :=
    .receive (.check (mid (.line line :: news) [] .checking []) rfl (by decide))
  have h₆ : Step _ (mid news [] .idle [.line line]) :=
    .receive (.getLine (mid (.line line :: news) [] .getting []) line news rfl rfl)
  have h₇ : Step _ (mid news [] .checking [.line line]) :=
    .receive (.call (mid news [] .idle [.line line]) 1 rfl zero_lt_one)
  have h₈ : Step _ (mid news [] .getting [.line line]) :=
    .receive (.check (mid news [] .checking [.line line]) rfl (by decide))
  have h₉ : Step _ (mid [.readerDone .stderr] [.stdout] .checking [.line line]) :=
    .receive (.getDone (mid news [] .getting [.line line]) .stdout _ rfl rfl)
  have h₁₀ : Step _ (mid [.readerDone .stderr] [.stdout] .getting [.line line]) :=
    .receive (.check (mid [.readerDone .stderr] [.stdout] .checking [.line line]) rfl (by decide))
  have h₁₁ : Step _ (mid [] [.stdout, .stderr] .checking [.line line]) :=
    .receive (.getDone (mid [.readerDone .stderr] [.stdout] .getting [.line line]) .stderr [] rfl rfl)
  have h₁₂ : Step _ sampleStream :=
    .receive (.checkEnded (mid [] [.stdout, .stderr] .checking [.line line]) 0 rfl rfl rfl)
  exact ((((((((((((Relation.ReflTransGen.single h₁).tail h₂).tail h₃).tail h₄).tail h₅).tail h₆).tail
    h₇).tail h₈).tail h₉).tail h₁₀).tail h₁₁).tail h₁₂)

/-- The end is told after the line. -/
theorem received_eq_offered_sample :
    received sampleStream.returned ++ queuedLines sampleStream.queue = sampleStream.offered
    ∧ received [.line ⟨.stdout, [97], false⟩] = sampleStream.offered :=
  have h := received_eq_offered reachable_sampleStream
  ⟨h.1, (h.2.1 [.line ⟨.stdout, [97], false⟩] 0 [] rfl).2⟩

end CommandStream

end Heimdall
