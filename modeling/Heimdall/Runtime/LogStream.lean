import Heimdall.Runtime.Logs

/-!
# Following the log of a container

`docker logs --follow` is read line by line in two threads, one for each output of the command
(`readLines`); of a line longer than a limit the beginning is retained and the rest discarded. The
retained lines reach `receive` through a queue. There the message after the timestamp is redacted,
cut to `serviceLogMaxLineBytes` and decoded (`logLine`).

The limit leaves room for the longest value to redact, and 128 bytes more, beyond the bound of a
message (`rawLineLimit`). Marks are shorter than most values, so that what is retained of a line can
shrink below the bound, and then shows what the complete line would not.
-/

namespace Heimdall

open Text

/-! ## Reading lines -/

inductive CommandOutputStream where
  | stdout
  | stderr
deriving DecidableEq

structure CommandOutputLine where
  stream : CommandOutputStream
  payload : List UInt8
  truncated : Bool
deriving DecidableEq

def lineFeed : UInt8 := 10

def readerChunkBytes : ℕ := 65536

/-- `readline`: up to the next line feed and with it, but at most `n` bytes; and what is left. -/
def readline (n : ℕ) (input : List UInt8) : List UInt8 × List UInt8 :=
  input.splitAt (min n ((input.takeWhile (· != lineFeed)).length + 1))

theorem length_readline (n : ℕ) (input : List UInt8) :
    (readline n input).1.length + (readline n input).2.length = input.length := by
  simp only [readline, List.splitAt_eq, List.length_take, List.length_drop]
  omega

def isLineEnd (b : UInt8) : Bool := b == 13 || b == 10

/-- `rstrip(b"\r\n")` -/
def stripLine (line : List UInt8) : List UInt8 := line.rdropWhile isLineEnd

/-- Discard the rest of a line. -/
def skipLine (input : List UInt8) : List UInt8 :=
  if (readline readerChunkBytes input).1 = []
      ∨ (readline readerChunkBytes input).1.getLast? = some lineFeed then
    (readline readerChunkBytes input).2
  else skipLine (readline readerChunkBytes input).2
termination_by input.length
decreasing_by
  have := length_readline readerChunkBytes input
  have := List.length_pos_iff.mpr (not_or.mp ‹_›).1
  omega

theorem length_skipLine (input : List UInt8) : (skipLine input).length ≤ input.length := by
  induction input using skipLine.induct with
  | case1 input h =>
    have := length_readline readerChunkBytes input
    rw [skipLine, if_pos h]
    omega
  | case2 input h ih =>
    have := length_readline readerChunkBytes input
    rw [skipLine, if_neg h]
    omega

/-- `_read`: the lines of one output, with at most `maxLineBytes` retained of each. -/
def readLines (maxLineBytes : ℕ) (stream : CommandOutputStream) (input : List UInt8) :
    List CommandOutputLine :=
  if (readline (maxLineBytes + 1) input).1 = [] then []
  else if (readline (maxLineBytes + 1) input).1.getLast? = some lineFeed then
    ⟨stream, stripLine ((readline (maxLineBytes + 1) input).1.take maxLineBytes),
        (readline (maxLineBytes + 1) input).1.length > maxLineBytes⟩
      :: readLines maxLineBytes stream (readline (maxLineBytes + 1) input).2
  else
    ⟨stream, stripLine ((readline (maxLineBytes + 1) input).1.take maxLineBytes), true⟩
      :: readLines maxLineBytes stream (skipLine (readline (maxLineBytes + 1) input).2)
termination_by input.length
decreasing_by
  all_goals
    have := length_readline (maxLineBytes + 1) input
    have := length_skipLine (readline (maxLineBytes + 1) input).2
    have := List.length_pos_iff.mpr ‹¬ (readline (maxLineBytes + 1) input).1 = []›
    omega

/-! ## Receiving -/

/-- What a subscription gets from the queue of its command. -/
inductive StreamItem where
  | line (output : CommandOutputLine)
  | idle
  | ended (returncode : Int)
deriving DecidableEq

inductive ServiceLogStreamEvent where
  | line (line : ServiceLogLine) (truncated : Bool)
  | ended
deriving DecidableEq

/-- The values to redact, as bytes. -/
def redactionBytes (values : List String) : List (List UInt8) :=
  values.map fun v ↦ Utf8.encode v.toList

def rawLineLimit (redactions : List (List UInt8)) : ℕ :=
  serviceLogMaxLineBytes + (redactions.map List.length).foldl max 0 + 128

/-- The timestamp of a line and the message after it, unless the line is passed over. -/
def splitTimestamp (payload : List UInt8) : Option (List Char × List UInt8) :=
  let (timestamp, separator, message) := partition (· == 32) payload
  let decoded := timestamp.map fun b ↦ Char.ofNat b.toNat
  if timestamp.all (· < 128) && !separator.isEmpty && isDockerTimestamp decoded then
    some (decoded, message)
  else none

/-- What `receive` makes of a line; `none` when it goes on with the next one. -/
def logLine (redactions : List (List UInt8)) (output : CommandOutputLine) :
    Option ServiceLogStreamEvent := do
  let (timestamp, message) ← splitTimestamp output.payload
  let message := redact id (Utf8.encode redactionMark.toList) redactions message
  let decoded := Utf8.decode id (fun c _ ↦ c) (fun _ ↦ ['\uFFFD'])
    (message.take serviceLogMaxLineBytes)
  let bounded := boundedUtf8 decoded serviceLogMaxLineBytes
  return .line
    { timestamp := String.ofList timestamp
      stream := match output.stream with
        | .stdout => .stdout
        | .stderr => .stderr
      message := String.ofList bounded.1 }
    (output.truncated || message.length > serviceLogMaxLineBytes || bounded.2)

/-- `receive`, on what the queue will give; `none` when it waits longer than it is told to. -/
def receive (redactions : List (List UInt8)) :
    List StreamItem → Except Exc (Option ServiceLogStreamEvent) × List StreamItem
  | [] => (.ok none, [])
  | .idle :: items => (.ok none, items)
  | .ended returncode :: items =>
    if returncode ≠ 0 then (.error (.serviceLog "SERVICE_LOGS_UNAVAILABLE"), items)
    else (.ok (some .ended), items)
  | .line output :: items =>
    match logLine redactions output with
    | some event => (.ok (some event), items)
    | none => receive redactions items

/-! ## What the reader retains -/

variable {content rest input : List UInt8} {n maxLineBytes : ℕ} {stream : CommandOutputStream}

theorem takeWhile_lineFeed (h : lineFeed ∉ content) (rest : List UInt8) :
    (content ++ lineFeed :: rest).takeWhile (· != lineFeed) = content := by
  rw [List.takeWhile_append_of_pos]
  · simp
  · intro b hb
    simpa using fun heq : b = lineFeed ↦ h (heq ▸ hb)

theorem takeWhile_of_notMem (h : lineFeed ∉ content) :
    content.takeWhile (· != lineFeed) = content := by
  rw [List.takeWhile_eq_self_iff]
  intro b hb
  simpa using fun heq : b = lineFeed ↦ h (heq ▸ hb)

theorem readline_line (h : lineFeed ∉ content) (hn : content.length < n) :
    readline n (content ++ lineFeed :: rest) = (content ++ [lineFeed], rest) := by
  rw [readline, takeWhile_lineFeed h, Nat.min_eq_right hn,
    show content ++ lineFeed :: rest = (content ++ [lineFeed]) ++ rest by simp,
    List.splitAt_eq, List.take_left' (by simp), List.drop_left' (by simp)]

/-- The limit is reached before the end of the line. -/
theorem readline_part (h : lineFeed ∉ content) (hn : n ≤ content.length) :
    readline n (content ++ lineFeed :: rest) = (content.take n, content.drop n ++ lineFeed :: rest) := by
  rw [readline, takeWhile_lineFeed h, Nat.min_eq_left (by omega), List.splitAt_eq,
    List.take_append_of_le_length hn, List.drop_append_of_le_length hn]

theorem readline_last (h : lineFeed ∉ content) (n : ℕ) :
    readline n content = (content.take n, content.drop n) := by
  rw [readline, takeWhile_of_notMem h, List.splitAt_eq]
  by_cases hn : n ≤ content.length
  · rw [Nat.min_eq_left (by omega)]
  · rw [List.take_of_length_le (by omega), List.take_of_length_le (by omega),
      List.drop_of_length_le (by omega), List.drop_of_length_le (by omega)]

theorem getLast?_ne_lineFeed (h : lineFeed ∉ content) : content.getLast? ≠ some lineFeed :=
  fun hlast ↦ h (List.mem_of_getLast? hlast)

theorem skipLine_line (h : lineFeed ∉ content) : skipLine (content ++ lineFeed :: rest) = rest := by
  induction hlen : content.length using Nat.strong_induction_on generalizing content with
  | _ k ih =>
    subst hlen
    by_cases hshort : content.length < readerChunkBytes
    · rw [skipLine, readline_line h hshort, if_pos (.inr (by simp))]
    · have hpos : 0 < readerChunkBytes := by decide
      rw [skipLine, readline_part h (not_lt.mp hshort), if_neg]
      · refine ih _ ?_ (fun hmem ↦ h (List.mem_of_mem_drop hmem)) rfl
        rw [List.length_drop]
        omega
      · rintro (hnil | hlast)
        · have := congrArg List.length hnil
          simp only [List.length_take, List.length_nil] at this
          omega
        · exact getLast?_ne_lineFeed (fun hmem ↦ h (List.mem_of_mem_take hmem)) hlast

theorem skipLine_last (h : lineFeed ∉ content) : skipLine content = [] := by
  induction hlen : content.length using Nat.strong_induction_on generalizing content with
  | _ k ih =>
    subst hlen
    rw [skipLine, readline_last h]
    have hpos : 0 < readerChunkBytes := by decide
    split
    next hdone =>
      rcases hdone with hnil | hlast
      · have := congrArg List.length hnil
        simp only [List.length_take, List.length_nil] at this
        rw [List.drop_eq_nil_iff]
        omega
      · exact absurd hlast (getLast?_ne_lineFeed fun hmem ↦ h (List.mem_of_mem_take hmem))
    next hmore =>
      refine ih _ ?_ (fun hmem ↦ h (List.mem_of_mem_drop hmem)) rfl
      have := List.length_pos_iff.mpr (not_or.mp hmore).1
      rw [List.length_take] at this
      rw [List.length_drop]
      omega

/-- The lines of an output, of which the last may be unfinished; `line` is what is already known of
the first. -/
def rawLinesFrom (line : List UInt8) : List UInt8 → List (List UInt8)
  | [] => if line.isEmpty then [] else [line]
  | b :: input => if b = lineFeed then line :: rawLinesFrom [] input
      else rawLinesFrom (line ++ [b]) input

def rawLines (input : List UInt8) : List (List UInt8) := rawLinesFrom [] input

/-- What is retained of a line. -/
def captureLine (maxLineBytes : ℕ) (line : List UInt8) : List UInt8 :=
  stripLine (line.take maxLineBytes)

theorem stripLine_append_lineFeed (line : List UInt8) :
    stripLine (line ++ [lineFeed]) = stripLine line :=
  List.rdropWhile_concat_pos _ _ _ rfl

/-- The reader takes one line after the other. -/
theorem readLines_line (h : lineFeed ∉ content) :
    readLines maxLineBytes stream (content ++ lineFeed :: rest)
      = ⟨stream, captureLine maxLineBytes content, maxLineBytes ≤ content.length⟩
        :: readLines maxLineBytes stream rest := by
  rw [readLines]
  by_cases hshort : content.length < maxLineBytes + 1
  · rw [readline_line h hshort, if_neg (by simp), if_pos (by simp)]
    congr 2
    · rw [captureLine]
      rcases Nat.lt_or_ge content.length maxLineBytes with hlt | hge
      · rw [List.take_of_length_le (by simpa using Nat.succ_le_of_lt hlt), List.take_of_length_le hlt.le,
          stripLine_append_lineFeed]
      · rw [List.take_append_of_le_length hge]
    · simp [Nat.lt_succ_iff]
  · have hlen : maxLineBytes + 1 ≤ content.length := not_lt.mp hshort
    have hne : content.take (maxLineBytes + 1) ≠ [] := by
      rw [← List.length_pos_iff, List.length_take]
      omega
    have hlast : (content.take (maxLineBytes + 1)).getLast? ≠ some lineFeed :=
      getLast?_ne_lineFeed fun hmem ↦ h (List.mem_of_mem_take hmem)
    rw [readline_part h hlen, if_neg hne, if_neg hlast,
      skipLine_line fun hmem ↦ h (List.mem_of_mem_drop hmem), List.take_take,
      Nat.min_eq_left (Nat.le_succ _)]
    congr 2
    simpa using (Nat.le_of_succ_le hlen)

theorem readLines_last (h : lineFeed ∉ content) :
    readLines maxLineBytes stream content
      = if content.isEmpty then [] else [⟨stream, captureLine maxLineBytes content, true⟩] := by
  rw [readLines, readline_last h]
  cases content with
  | nil => rfl
  | cons b content =>
    have hlast : ((b :: content).take (maxLineBytes + 1)).getLast? ≠ some lineFeed :=
      getLast?_ne_lineFeed fun hmem ↦ h (List.mem_of_mem_take hmem)
    rw [if_neg (by simp), if_neg hlast, skipLine_last fun hmem ↦ h (List.mem_of_mem_drop hmem),
      List.take_take, Nat.min_eq_left (Nat.le_succ _), readLines]
    rfl

/-- The part of a payload after its timestamp. -/
def messageOf (payload : List UInt8) : List UInt8 := (partition (· == 32) payload).2.2

/-- What is retained of a line decides its message: nothing is missing, or no timestamp is found, or
no replacement crosses from what yields `serviceLogMaxLineBytes` to what comes after it, neither in
what is retained nor in the complete line. -/
def Settled (redactions : List (List UInt8)) (line : List UInt8) : Prop :=
  captureLine (rawLineLimit redactions) line = stripLine line
    ∨ splitTimestamp (stripLine line) = none
    ∨ ∃ x y z, messageOf (captureLine (rawLineLimit redactions) line) = x ++ y
      ∧ messageOf (stripLine line) = x ++ z
      ∧ Apart id (Utf8.encode redactionMark.toList) redactions x y
      ∧ Apart id (Utf8.encode redactionMark.toList) redactions x z
      ∧ serviceLogMaxLineBytes
        ≤ (redact id (Utf8.encode redactionMark.toList) redactions x).length

/-- The line an event shows. -/
def ServiceLogStreamEvent.shown : ServiceLogStreamEvent → Option ServiceLogLine
  | .line l _ => some l
  | .ended => none

theorem stripLine_isPrefix (line : List UInt8) : stripLine line <+: line :=
  List.rdropWhile_prefix _ _

theorem splitTimestamp_eq (payload : List UInt8) : splitTimestamp payload
    = if (partition (· == 32) payload).1.all (· < 128)
        && !(partition (· == 32) payload).2.1.isEmpty
        && isDockerTimestamp ((partition (· == 32) payload).1.map fun b ↦ Char.ofNat b.toNat) then
      some ((partition (· == 32) payload).1.map fun b ↦ Char.ofNat b.toNat, messageOf payload)
    else none := rfl

theorem logLine_eq (redactions : List (List UInt8)) (output : CommandOutputLine) :
    (logLine redactions output).map ServiceLogStreamEvent.shown
      = (splitTimestamp output.payload).map fun timed ↦
        let decoded := Utf8.decode id (fun c _ ↦ c) (fun _ ↦ ['\uFFFD'])
          ((redact id (Utf8.encode redactionMark.toList) redactions timed.2).take
            serviceLogMaxLineBytes)
        some
          { timestamp := String.ofList timed.1
            stream := match output.stream with
              | .stdout => .stdout
              | .stderr => .stderr
            message := String.ofList (boundedUtf8 decoded serviceLogMaxLineBytes).1 } := by
  rw [logLine]
  cases splitTimestamp output.payload <;> rfl

/-- A set of texts in the order of their last occurrences. -/
def lastOrder : SetOrder := ⟨List.dedup, List.nodup_dedup, fun _ _ ↦ List.mem_dedup⟩

def longRuntime : RuntimeDeployment where
  services := [{
    name := "api", buildContext := [], dockerfile := ["Dockerfile"], internalPort := 8000,
    healthPath := "/health", environment := [], projectDatabaseAccess := false
    secrets := [⟨"KEY", "projects/api/v1.secret", String.ofList (List.replicate 64 '0'),
      "/run/secrets/heimdall/environment/key"⟩]
    name_valid := by decide }]
  routes := [⟨"/", "api", by decide⟩]
  database := none
  names_nodup := by decide
  routes_known := by decide
  paths_nodup := by decide
  root_mem := by decide

/-- The only value a deployment has is redacted. -/
theorem lastOrder_redactions {value : String} (h : unredactable value = false) :
    deploymentLogRedactions lastOrder (fun _ _ ↦ .ok value) (some longRuntime) = .ok [value] := by
  have hread : (longRuntime.logSecrets.mapM fun _ ↦ Except.ok value) = Except.ok (ε := Exc) [value] :=
    rfl
  rw [deploymentLogRedactions, hread]
  simp [h, lastOrder]

end Heimdall
