import Heimdall.Runtime.Logs
import Heimdall.Text.Trace

/-!
# Captured output and snapshots of service logs

The output of a command is read in chunks, of which the last `maxCaptureBytes` bytes are kept
(`drain`), and decoded. `serviceLogLines` makes the lines of a snapshot from the captured output of
`docker logs --timestamps`: the text is split into lines, each line into its timestamp and its
message, and the message is redacted and bounded; the lines of both streams are put in the order of
their timestamps, and the last `serviceLogTail` of them are kept.
-/

namespace Heimdall

open Text Symbol

/-! ## Capturing -/

def maxCaptureBytes : ℕ := 262144

section Capture

variable {β : Type}

/-- `_drain`: what is kept of a stream that arrives in chunks, and whether anything was dropped. -/
def drain (chunks : List (List β)) : List β × Bool :=
  chunks.foldl (fun (payload, truncated) chunk ↦
    let overflow := (payload ++ chunk).length - maxCaptureBytes
    ((payload ++ chunk).drop overflow, truncated || decide (0 < overflow))) ([], false)

/-- What is kept of an output: its last `maxCaptureBytes` bytes. -/
def keptTail (output : List β) : List β := output.drop (output.length - maxCaptureBytes)

theorem drain_eq (chunks : List (List β)) :
    drain chunks = (keptTail chunks.flatten, decide (maxCaptureBytes < chunks.flatten.length)) := by
  unfold drain keptTail
  generalize maxCaptureBytes = n
  induction chunks using List.reverseRecOn with
  | nil => simp
  | append_singleton chunks chunk ih =>
    rw [List.foldl_append, List.foldl_cons, List.foldl_nil, ih]
    simp only [List.flatten_append, List.flatten_singleton, List.length_append,
      List.length_drop, Prod.mk.injEq]
    constructor
    · rw [← List.drop_append_of_le_length (Nat.sub_le _ _), List.drop_drop]
      congr 1
      omega
    · rw [← Bool.decide_or, decide_eq_decide]
      omega

end Capture

/-- `_BoundedCapture.text` -/
def capturedText (chunks : List (List UInt8)) : List Char := decodeReplace (drain chunks).1

/-- What `SubprocessCommandRunner.run` returns of a process with these outputs. -/
def captureResult (returncode : Int) (chunks : ServiceLogStream → List (List UInt8)) :
    CommandResult where
  returncode := returncode
  stdout := String.ofList (capturedText (chunks .stdout))
  stderr := String.ofList (capturedText (chunks .stderr))
  stdoutTruncated := (drain (chunks .stdout)).2
  stderrTruncated := (drain (chunks .stderr)).2

/-! ## Lines with timestamps -/

/-- A line of a snapshot. -/
structure LogLine (α : Type) where
  timestamp : List α
  stream : ServiceLogStream
  message : List α

section Lines

variable {α : Type} [Symbol α]

def mark : List α := redactionMark.toList.map lit

/-- A line of captured output with its message redacted and bounded, and whether it was cut; `none`
when it has no timestamp. -/
def serviceLogLine (redactions : List (List Char)) (stream : ServiceLogStream) (rawLine : List α) :
    Option (LogLine α × Bool) :=
  let (timestamp, separator, message) := partition (fun a ↦ char a == ' ') rawLine
  if separator.isEmpty || !isDockerTimestamp (timestamp.map char) then none
  else
    let bounded := boundedUtf8 (redact char mark redactions message) serviceLogMaxLineBytes
    some ({ timestamp, stream, message := bounded.1 }, bounded.2)

/-- The order of `(timestamp, sequence)`. -/
def entryLE (a b : LogLine α × ℕ) : Bool :=
  decide (a.1.timestamp.map char < b.1.timestamp.map char)
    || decide (a.1.timestamp.map char = b.1.timestamp.map char) && decide (a.2 ≤ b.2)

/-- The lines of a snapshot, and whether anything is missing. -/
def serviceLogLines (stdout stderr : List α) (captureTruncated : Bool)
    (redactions : List (List Char)) : List (LogLine α) × Bool :=
  let raw := (splitlines stdout).map (serviceLogLine redactions .stdout)
    ++ (splitlines stderr).map (serviceLogLine redactions .stderr)
  let parsed := raw.filterMap id
  let entries := (parsed.map Prod.fst).zipIdx.mergeSort entryLE
  ((entries.drop (entries.length - serviceLogTail)).map Prod.fst,
    captureTruncated || raw.any Option.isNone || parsed.any Prod.snd
      || decide (serviceLogTail < entries.length))

/-- Every line of a snapshot was made from one of the lines of the output. -/
theorem mem_serviceLogLines {redactions : List (List Char)} {stdout stderr : List α}
    {captureTruncated : Bool} {line : LogLine α}
    (h : line ∈ (serviceLogLines stdout stderr captureTruncated redactions).1) :
    ∃ stream rawLine cut, rawLine ∈ splitlines (match stream with
        | ServiceLogStream.stdout => stdout
        | .stderr => stderr)
      ∧ serviceLogLine redactions stream rawLine = some (line, cut) := by
  simp only [serviceLogLines] at h
  obtain ⟨⟨l, n⟩, hentry, rfl⟩ := List.mem_map.mp h
  have hmem := List.mem_mergeSort.mp (List.mem_of_mem_drop hentry)
  obtain ⟨⟨l', cut⟩, hparsed, rfl⟩ := List.mem_map.mp (List.fst_mem_of_mem_zipIdx hmem)
  obtain ⟨o, ho, hsome⟩ := List.mem_filterMap.mp hparsed
  rcases List.mem_append.mp ho with ho | ho
  · obtain ⟨rawLine, hraw, hline⟩ := List.mem_map.mp ho
    exact ⟨.stdout, rawLine, cut, hraw, hline.trans hsome⟩
  · obtain ⟨rawLine, hraw, hline⟩ := List.mem_map.mp ho
    exact ⟨.stderr, rawLine, cut, hraw, hline.trans hsome⟩

def LogLine.text (line : LogLine α) : ServiceLogLine where
  timestamp := String.ofList (line.timestamp.map char)
  stream := line.stream
  message := String.ofList (line.message.map char)

end Lines

/-- `_service_log_lines`, on the result of a command. -/
def CommandResult.serviceLogLines (result : CommandResult) (redactions : List String) :
    List ServiceLogLine × Bool :=
  Prod.map (List.map LogLine.text) id
    (Heimdall.serviceLogLines result.stdout.toList result.stderr.toList
      (result.stdoutTruncated || result.stderrTruncated) (redactions.map String.toList))

/-! ## Forgetting the places -/

section Forget

variable {α β : Type} [Symbol α] [Symbol β] {f : α → β} (hf : Forgets f)
  {redactions : List (List Char)} {stream : ServiceLogStream}

def LogLine.map (f : α → β) (line : LogLine α) : LogLine β where
  timestamp := line.timestamp.map f
  stream := line.stream
  message := line.message.map f

include hf

theorem map_mark : (mark : List α).map f = mark := by
  simp [mark, List.map_map, Function.comp_def, hf.lit]

theorem map_redact_mark (t : List α) :
    (redact char mark redactions t).map f = redact char mark redactions (t.map f) := by
  rw [map_redact hf.char, map_mark hf]

theorem map_keys (t : List α) : (t.map f).map char = t.map char := by
  rw [List.map_map]
  exact List.map_congr_left fun a _ ↦ hf.char a

theorem map_serviceLogLine (rawLine : List α) :
    (serviceLogLine redactions stream rawLine).map (Prod.map (LogLine.map f) id)
      = serviceLogLine redactions stream (rawLine.map f) := by
  have hspace : (fun a ↦ char a == ' ') ∘ f = fun a ↦ char a == ' ' := by
    funext a
    rw [Function.comp_apply, hf.char]
  simp only [serviceLogLine, map_partition, hspace, map_keys hf, List.isEmpty_map]
  split
  · rfl
  · rw [← map_redact_mark hf, ← map_boundedUtf8 hf]
    rfl

theorem entryLE_map (a b : LogLine α × ℕ) :
    entryLE a b = entryLE (Prod.map (LogLine.map f) id a) (Prod.map (LogLine.map f) id b) := by
  simp only [entryLE, Prod.map_fst, Prod.map_snd, LogLine.map, map_keys hf, id]

/-- The lines of a snapshot do not depend on where the characters come from. -/
theorem map_serviceLogLines (stdout stderr : List α) (captureTruncated : Bool) :
    Prod.map (List.map (LogLine.map f)) id
        (serviceLogLines stdout stderr captureTruncated redactions)
      = serviceLogLines (stdout.map f) (stderr.map f) captureTruncated redactions := by
  have hraw : ∀ (stream : ServiceLogStream) (t : List α),
      (splitlines (t.map f)).map (serviceLogLine redactions stream)
        = ((splitlines t).map (serviceLogLine redactions stream)).map
          (Option.map (Prod.map (LogLine.map f) id)) := by
    intro stream t
    rw [← map_splitlines hf, List.map_map, List.map_map]
    exact List.map_congr_left fun l _ ↦ (map_serviceLogLine hf l).symm
  have hparsed : ∀ raw : List (Option (LogLine α × Bool)),
      (raw.map (Option.map (Prod.map (LogLine.map f) id))).filterMap id
        = (raw.filterMap id).map (Prod.map (LogLine.map f) id) := by
    intro raw
    rw [List.filterMap_map, List.map_filterMap]
    rfl
  simp only [serviceLogLines, hraw, ← List.map_append, hparsed]
  generalize (splitlines stdout).map _ ++ (splitlines stderr).map _ = raw
  have hentries : (((raw.filterMap id).map Prod.fst).zipIdx.mergeSort entryLE).map
      (Prod.map (LogLine.map f) id)
      = (((raw.filterMap id).map (Prod.map (LogLine.map f) id)).map Prod.fst).zipIdx.mergeSort
        entryLE := by
    rw [List.map_mergeSort fun a _ b _ ↦ entryLE_map hf a b, ← List.zipIdx_map, List.map_map,
      List.map_map]
    rfl
  rw [← hentries]
  simp only [List.length_map, List.map_drop, List.map_map, List.any_map, Prod.map]
  have hnone : Option.isNone ∘ Option.map (Prod.map (LogLine.map f) (id : Bool → Bool))
      = Option.isNone := by
    funext o
    cases o <;> rfl
  rw [hnone]
  rfl

end Forget

/-! ## What is left of a part of the output -/

section Clean

variable {ι : Type} {bad : ι → Prop} {redactions : List (List Char)} {stream : ServiceLogStream}

/-- Neither the timestamp nor the message has a symbol from a bad place. -/
def LogLine.Clean (bad : ι → Prop) (line : LogLine (Traced ι)) : Prop :=
  ∀ a ∈ line.timestamp ++ line.message, Text.Clean bad a

theorem clean_mark : ∀ a ∈ (mark : List (Traced ι)), Text.Clean bad a := by
  intro a ha
  obtain ⟨c, -, rfl⟩ := List.mem_map.mp ha
  exact clean_lit c

theorem serviceLogLine_clean {rawLine : List (Traced ι)} {line : LogLine (Traced ι)} {cut : Bool}
    (h : serviceLogLine redactions stream rawLine = some (line, cut))
    (htimestamp : ∀ a ∈ (partition (fun a ↦ char a == ' ') rawLine).1, Text.Clean bad a)
    (hmessage : ∀ a ∈ redact char mark redactions (partition (fun a ↦ char a == ' ') rawLine).2.2,
      Text.Clean bad a) : line.Clean bad := by
  simp only [serviceLogLine] at h
  split at h
  · cases h
  · cases h
    intro a ha
    rcases List.mem_append.mp ha with ha | ha
    · exact htimestamp a ha
    · exact clean_boundedUtf8 hmessage _ a ha

theorem serviceLogLine_clean_of_clean {rawLine : List (Traced ι)} {line : LogLine (Traced ι)}
    {cut : Bool} (h : serviceLogLine redactions stream rawLine = some (line, cut))
    (hclean : ∀ a ∈ rawLine, Text.Clean bad a) : line.Clean bad := by
  have hparts := partition_append (fun a ↦ char a == ' ') rawLine
  refine serviceLogLine_clean h (fun a ha ↦ hclean a ?_)
    (clean_redact clean_mark fun a ha ↦ hclean a ?_) <;> rw [← hparts] <;> simp [ha]

end Clean

end Heimdall
