import Heimdall.Deployments.Repository
import Heimdall.Runtime.LogSnapshot
import Heimdall.Runtime.LogStream

/-!
# Output kept for diagnostics

The captured output of a failed command becomes an artifact of its deployment (`commandArtifact`):
the text is split into lines, each line is redacted and bounded, and lines are dropped from the
front until the artifact fits.

## Secrets in the output

Redaction works on the lines of what was captured. `redaction_hides` says, for an occurrence of a
secret in the complete output of a process, when none of its characters reaches the lines of the
artifact, or of a snapshot of a service log: the capture does not cut it in two, no character of it
separates lines, and no replacement takes a part of it and leaves the rest (`Unsplit`). A value with
a separator is accepted and is shown in pieces (`redaction_shows_pieces`).
-/

namespace Heimdall

open Text Symbol

/-! ## The artifact of a command -/

structure OutputLine (α : Type) where
  stream : DiagnosticStream
  message : List α

section Lines

variable {α : Type} [Symbol α]

def OutputLine.text (line : OutputLine α) : DiagnosticLine where
  stream := line.stream
  message := String.ofList (line.message.map char)

def lineTruncated : String := "[line output truncated]"

/-- The lines of one stream. -/
def streamLines (redactions : List (List Char)) (stream : DiagnosticStream) (payload : List α) :
    List (OutputLine α) :=
  (splitlines payload).flatMap fun rawLine ↦
    let bounded := boundedUtf8 (redact char mark redactions rawLine) serviceLogMaxLineBytes
    ⟨stream, bounded.1⟩ :: if bounded.2 then [⟨stream, lineTruncated.toList.map lit⟩] else []

def diagnosticArtifactMaxBytes : ℕ := 262144

/-- `_encoded_size` -/
def encodedSize (lines : List (OutputLine α)) : ℕ :=
  (Utf8.encode (Json.print false (DeploymentDb.diagnosticPayload (lines.map OutputLine.text)))).length

/-- `_bounded_lines`: without the first lines, as many as it takes to fit. -/
def boundedLines : List (OutputLine α) → List (OutputLine α) × Bool
  | [] => ([], decide (diagnosticArtifactMaxBytes < encodedSize ([] : List (OutputLine α))))
  | line :: lines =>
    if diagnosticArtifactMaxBytes < encodedSize (line :: lines) then ((boundedLines lines).1, true)
    else (line :: lines, false)

def commandLines (redactions : List (List Char)) (stdout stderr : List α) :
    List (OutputLine α) × Bool :=
  boundedLines (streamLines redactions .stdout stdout ++ streamLines redactions .stderr stderr)

end Lines

/-- `_command_artifact` -/
def commandArtifact (order : SetOrder) (read : String → String → Except Exc String)
    (runtime : Option RuntimeDeployment) (command : FailedCommandOutput) (capturedAt : Time) :
    Except Exc DiagnosticArtifactDraft :=
  match deploymentLogRedactions order read runtime with
  | .error (.serviceLog code) => .ok
    { kind := .commandOutput
      captureStatus := .unavailable
      captureCode := some code
      operation := some command.operation
      serviceName := command.serviceName
      returnCode := some command.returnCode
      truncated := command.stdoutTruncated || command.stderrTruncated
      capturedAt := capturedAt }
  | .error x => .error x
  | .ok redactions =>
    let bounded := commandLines (redactions.map String.toList) command.stdout.toList
      command.stderr.toList
    .ok
    { kind := .commandOutput
      captureStatus := .captured
      operation := some command.operation
      serviceName := command.serviceName
      returnCode := some command.returnCode
      lines := bounded.1.map OutputLine.text
      truncated := command.stdoutTruncated || command.stderrTruncated || bounded.2
      capturedAt := capturedAt }

/-! ## Forgetting the places -/

section Forget

variable {α β : Type} [Symbol α] [Symbol β] {f : α → β} (hf : Forgets f)
  {redactions : List (List Char)}

def OutputLine.map (f : α → β) (line : OutputLine α) : OutputLine β := ⟨line.stream, line.message.map f⟩

include hf

theorem map_streamLines (stream : DiagnosticStream) (payload : List α) :
    (streamLines redactions stream payload).map (OutputLine.map f)
      = streamLines redactions stream (payload.map f) := by
  rw [streamLines, streamLines, ← map_splitlines hf, List.map_flatMap, List.flatMap_map]
  refine List.flatMap_congr fun rawLine _ ↦ ?_
  simp only [← map_redact_mark hf, ← map_boundedUtf8 hf, List.map_cons]
  split <;> simp [OutputLine.map, hf.lit]

theorem text_map (line : OutputLine α) : (line.map f).text = line.text := by
  rw [OutputLine.text, OutputLine.map, map_keys hf]
  rfl

theorem encodedSize_map (lines : List (OutputLine α)) :
    encodedSize (lines.map (OutputLine.map f)) = encodedSize lines := by
  rw [encodedSize, List.map_map, encodedSize,
    show OutputLine.text ∘ OutputLine.map f = OutputLine.text from funext fun l ↦ text_map hf l]

theorem map_boundedLines (lines : List (OutputLine α)) :
    Prod.map (List.map (OutputLine.map f)) id (boundedLines lines)
      = boundedLines (lines.map (OutputLine.map f)) := by
  induction lines with
  | nil => rfl
  | cons line lines ih =>
    have hsize := encodedSize_map hf (line :: lines)
    rw [List.map_cons] at hsize ⊢
    rw [boundedLines, boundedLines, hsize, ← ih]
    split <;> rfl

/-- The lines of an artifact do not depend on where the characters come from. -/
theorem map_commandLines (stdout stderr : List α) :
    Prod.map (List.map (OutputLine.map f)) id (commandLines redactions stdout stderr)
      = commandLines redactions (stdout.map f) (stderr.map f) := by
  rw [commandLines, map_boundedLines hf, List.map_append, map_streamLines hf, map_streamLines hf,
    commandLines]

end Forget

/-! ## What is left of a part of the output -/

section Clean

variable {ι : Type} {bad : ι → Prop} {redactions : List (List Char)}

def OutputLine.Clean (bad : ι → Prop) (line : OutputLine (Traced ι)) : Prop :=
  ∀ a ∈ line.message, Text.Clean bad a

theorem subset_boundedLines {α : Type} [Symbol α] (lines : List (OutputLine α)) :
    (boundedLines lines).1 ⊆ lines := by
  induction lines with
  | nil => simp [boundedLines]
  | cons line lines ih =>
    rw [boundedLines]
    split
    · exact fun l hl ↦ List.mem_cons_of_mem _ (ih hl)
    · exact List.Subset.refl _

theorem streamLines_clean {stream : DiagnosticStream} {payload : List (Traced ι)}
    (h : ∀ rawLine ∈ splitlines payload, ∀ a ∈ redact char mark redactions rawLine,
      Text.Clean bad a) : ∀ line ∈ streamLines redactions stream payload, line.Clean bad := by
  intro line hline
  obtain ⟨rawLine, hraw, hline⟩ := List.mem_flatMap.mp hline
  rcases List.mem_cons.mp hline with rfl | hline
  · exact clean_boundedUtf8 (h rawLine hraw) _
  · split at hline
    · obtain rfl := List.mem_singleton.mp hline
      intro a ha
      obtain ⟨c, -, rfl⟩ := List.mem_map.mp ha
      exact clean_lit c
    · simp at hline

end Clean

/-! ## Occurrences of secrets -/

/-- A place in the output of a process. -/
abbrev Place := ServiceLogStream × ℕ

/-- The bytes of an output with their places, the first of which is `n`. -/
def placed (stream : ServiceLogStream) (output : List UInt8) (n : ℕ) : List (UInt8 × Place) :=
  (output.zipIdx n).map fun b ↦ (b.1, (stream, b.2))

/-- The captured text of an output, with the places of its characters. -/
def placedText (stream : ServiceLogStream) (output : List UInt8) : List (Traced Place) :=
  decodeReplace (keptTail (placed stream output 0))

theorem placed_append (stream : ServiceLogStream) (x y : List UInt8) (n : ℕ) :
    placed stream (x ++ y) n = placed stream x n ++ placed stream y (n + x.length) := by
  rw [placed, List.zipIdx_append, List.map_append, placed, placed]

theorem map_placed (stream : ServiceLogStream) (output : List UInt8) (n : ℕ) :
    (placed stream output n).map Prod.fst = output := by
  rw [placed, List.map_map]
  exact List.zipIdx_map_fst _ _

theorem length_placed (stream : ServiceLogStream) (output : List UInt8) (n : ℕ) :
    (placed stream output n).length = output.length := by
  rw [placed, List.length_map, List.length_zipIdx]

theorem mem_placed {stream : ServiceLogStream} {output : List UInt8} {n : ℕ} {b : UInt8 × Place}
    (h : b ∈ placed stream output n) : b.2.1 = stream ∧ n ≤ b.2.2 ∧ b.2.2 < n + output.length := by
  obtain ⟨⟨c, i⟩, hmem, rfl⟩ := List.mem_map.mp h
  have hle := List.le_snd_of_mem_zipIdx hmem
  have hlt := List.snd_lt_add_of_mem_zipIdx hmem
  exact ⟨rfl, hle, by simpa [Nat.add_comm] using hlt⟩

/-- Without the places the text is what the capture keeps. -/
theorem map_placedText (stream : ServiceLogStream) (chunks : List (List UInt8)) :
    (placedText stream chunks.flatten).map Traced.char = capturedText chunks := by
  rw [placedText, map_decodeReplace, capturedText, drain_eq, keptTail, keptTail, List.map_drop,
    map_placed, length_placed]

/-- An occurrence of a secret in the output of a process. -/
structure Occurrence (values : List String) (output : ServiceLogStream → List UInt8) where
  stream : ServiceLogStream
  before : List UInt8
  value : String
  after : List UInt8
  mem : value ∈ values
  split : output stream = before ++ Utf8.encode value.toList ++ after

namespace Occurrence

variable {values : List String} {output : ServiceLogStream → List UInt8}
  (o : Occurrence values output)

def bytes : List UInt8 := Utf8.encode o.value.toList

/-- The places of an occurrence. -/
def Covers (p : Place) : Prop :=
  p.1 = o.stream ∧ o.before.length ≤ p.2 ∧ p.2 < o.before.length + o.bytes.length

/-- How much of the output the capture drops. -/
def dropped : ℕ := (output o.stream).length - maxCaptureBytes

/-- What the line of the occurrence has before it. -/
def lineBefore : List Char := openLine [] (decodeReplace (o.before.drop o.dropped))

/-- What the line of the occurrence has after it. -/
def lineAfter : List Char := restOfLine (decodeReplace o.after)

/-- The lines of what is captured of the stream of an occurrence, with the places of their
characters. -/
def rawLines : List (List (Traced Place)) := splitlines (placedText o.stream (output o.stream))

/-- No line has a character of the occurrence before it is redacted, or the occurrence is kept
within one line in which no replacement takes a part of it and leaves the rest. -/
def HiddenInOutput : Prop :=
  (∀ rawLine ∈ o.rawLines, ∀ a ∈ rawLine, Text.Clean o.Covers a) ∨
    o.dropped ≤ o.before.length ∧ (∀ c ∈ o.value.toList, isLineBreak c = false)
      ∧ Unsplit char mark o.value.toList (values.map String.toList) o.lineBefore o.lineAfter

/-- The lines with a character of the occurrence are passed over, or the occurrence is kept within
the message of one line, in which no replacement takes a part of it and leaves the rest. -/
def HiddenInLog : Prop :=
  (∀ rawLine ∈ o.rawLines, (∀ a ∈ rawLine, Text.Clean o.Covers a)
      ∨ serviceLogLine (values.map String.toList) o.stream rawLine = none) ∨
    o.dropped ≤ o.before.length ∧ (∀ c ∈ o.value.toList, isLineBreak c = false)
      ∧ ' ' ∈ o.lineBefore ∧ Unsplit char mark o.value.toList (values.map String.toList)
        (partition (fun c ↦ char c == ' ') o.lineBefore).2.2 o.lineAfter

/-- No other occurrence of a secret has a byte of it. -/
def Isolated : Prop :=
  ∀ o' : Occurrence values output, o'.stream = o.stream →
    o'.before.length < o.before.length + o.bytes.length →
    o.before.length < o'.before.length + o'.bytes.length →
    o'.before = o.before ∧ o'.value = o.value

variable {o}

theorem placedText_of_ne {stream : ServiceLogStream} (h : stream ≠ o.stream) :
    ∀ a ∈ placedText stream (output stream), Text.Clean o.Covers a :=
  clean_decodeReplace fun _ hb hcovers ↦
    h ((mem_placed (List.mem_of_mem_drop hb)).1.symm.trans hcovers.1)

theorem placed_split : placed o.stream (output o.stream) 0 = placed o.stream o.before 0
    ++ placed o.stream o.bytes o.before.length
    ++ placed o.stream o.after (o.before.length + o.bytes.length) := by
  rw [o.split, placed_append, placed_append, Nat.zero_add, Nat.zero_add, List.length_append]
  rfl

theorem keptTail_placed : keptTail (placed o.stream (output o.stream) 0)
    = (placed o.stream (output o.stream) 0).drop o.dropped := by
  rw [keptTail, length_placed, dropped]

/-- Nothing is read of an occurrence that the capture drops. -/
theorem rawLines_of_dropped (h : o.before.length + o.bytes.length ≤ o.dropped) :
    ∀ rawLine ∈ o.rawLines, ∀ a ∈ rawLine, Text.Clean o.Covers a := by
  have htext : ∀ a ∈ placedText o.stream (output o.stream), Text.Clean o.Covers a := by
    refine clean_decodeReplace fun b hb hcovers ↦ ?_
    have hlength : (placed o.stream o.before 0 ++ placed o.stream o.bytes o.before.length).length
        ≤ o.dropped := by
      rwa [List.length_append, length_placed, length_placed]
    rw [keptTail_placed, placed_split, List.drop_append, List.drop_of_length_le hlength,
      List.nil_append] at hb
    have hplace := (mem_placed (List.mem_of_mem_drop hb)).2.1
    have hlt := hcovers.2.2
    omega
  exact fun rawLine hraw a ha ↦ htext a (subset_of_mem_splitlines hraw ha)

/-- The text of an occurrence that the capture keeps stands between what is read before it and
what is read after it. -/
theorem placedText_of_kept (h : o.dropped ≤ o.before.length) (hne : o.value.toList ≠ []) :
    ∃ x m y : List (Traced Place), placedText o.stream (output o.stream) = x ++ m ++ y
      ∧ x.map Traced.char = decodeReplace (o.before.drop o.dropped)
      ∧ m.map Traced.char = o.value.toList ∧ y.map Traced.char = decodeReplace o.after
      ∧ (∀ a ∈ x, Text.Clean o.Covers a) ∧ ∀ a ∈ y, Text.Clean o.Covers a := by
  have hbytes : (placed o.stream o.bytes o.before.length).map Octet.byte
      = Utf8.encode o.value.toList := map_placed _ _ _
  obtain ⟨hm, hsplit⟩ := decodeReplace_middle
    (x := (placed o.stream o.before 0).drop o.dropped)
    (y := placed o.stream o.after (o.before.length + o.bytes.length)) hne hbytes
  refine ⟨decodeReplace ((placed o.stream o.before 0).drop o.dropped), _,
    decodeReplace (placed o.stream o.after (o.before.length + o.bytes.length)), ?_, ?_, hm, ?_, ?_,
    ?_⟩
  · rw [placedText, keptTail_placed, placed_split, List.append_assoc,
      List.drop_append_of_le_length (by rwa [length_placed]), ← List.append_assoc]
    exact hsplit
  · rw [map_decodeReplace, List.map_drop, map_placed]
  · rw [map_decodeReplace, map_placed]
  · refine clean_decodeReplace fun b hb hcovers ↦ ?_
    have hplace := (mem_placed (List.mem_of_mem_drop hb)).2.2
    have hle := hcovers.2.1
    omega
  · refine clean_decodeReplace fun b hb hcovers ↦ ?_
    have hplace := (mem_placed hb).2.1
    have hlt := hcovers.2.2
    omega

/-- The line of an occurrence that the capture keeps; the other lines have nothing of it. -/
theorem rawLine_cases (hne : o.value.toList ≠ []) (h : o.dropped ≤ o.before.length)
    (hbreak : ∀ c ∈ o.value.toList, isLineBreak c = false) {rawLine : List (Traced Place)}
    (hraw : rawLine ∈ o.rawLines) :
    (∀ a ∈ rawLine, Text.Clean o.Covers a) ∨ ∃ x m y, rawLine = x ++ (m ++ y)
      ∧ x.map Traced.char = o.lineBefore ∧ m.map Traced.char = o.value.toList
      ∧ y.map Traced.char = o.lineAfter
      ∧ (∀ a ∈ x, Text.Clean o.Covers a) ∧ ∀ a ∈ y, Text.Clean o.Covers a := by
  obtain ⟨x, m, y, htext, hx, hm, hy, hxclean, hyclean⟩ := placedText_of_kept h hne
  have hmbreak : ∀ a ∈ m, isLineBreak (char a) = false := fun a ha ↦
    hbreak _ (by rw [← hm]; exact List.mem_map_of_mem ha)
  have hmne : m ≠ [] := by
    rintro rfl
    exact hne hm.symm
  obtain ⟨linesBefore, linesAfter, hbefore, hafter, hlines⟩ :=
    splitlines_append (x := x) (y := y) hmbreak hmne
  rw [Occurrence.rawLines, htext, hlines] at hraw
  rcases List.mem_append.mp hraw with hraw | hraw
  · exact .inl fun a ha ↦ hxclean a (hbefore rawLine hraw ha)
  rcases List.mem_cons.mp hraw with rfl | hraw
  · refine .inr ⟨_, m, _, List.append_assoc _ _ _, ?_, hm, ?_,
      fun a ha ↦ hxclean a (openLine_subset ha), fun a ha ↦ hyclean a (restOfLine_subset ha)⟩
    · rw [map_openLine Traced.forgets, hx]
      rfl
    · rw [map_restOfLine Traced.forgets, hy]
      rfl
  · exact .inl fun a ha ↦ hyclean a (hafter rawLine hraw ha)

/-- A line with an occurrence that is not split in it. -/
theorem redact_clean (hvalues : Redactions values) {x m y : List (Traced Place)}
    (hm : m.map Traced.char = o.value.toList) (hx : ∀ a ∈ x, Text.Clean o.Covers a)
    (hy : ∀ a ∈ y, Text.Clean o.Covers a)
    (h : Unsplit char mark o.value.toList (values.map String.toList) (x.map Traced.char)
      (y.map Traced.char)) :
    ∀ a ∈ redact char mark (values.map String.toList) (x ++ (m ++ y)), Text.Clean o.Covers a := by
  intro a ha
  have hsorted : (values.map String.toList).Pairwise fun s s' ↦ s'.length ≤ s.length :=
    List.pairwise_map.mpr hvalues.sorted
  have hne : m ≠ [] := by
    rintro rfl
    exact hvalues.nonempty _ o.mem hm.symm
  have hmem : m.map char ∈ values.map String.toList := by
    rw [show m.map char = o.value.toList from hm]
    exact List.mem_map_of_mem o.mem
  have hunsplit : Unsplit char mark m (values.map String.toList) x y := by
    rw [← hm, ← map_mark Traced.forgets] at h
    exact (unsplit_map (f := Traced.char) fun _ ↦ rfl).mp h
  exact (mem_redact_of_unsplit hsorted hne hmem hunsplit ha).elim (clean_mark a)
    fun ha ↦ ha.elim (hx a) (hy a)

/-- No character of a hidden occurrence is in the lines of an artifact. -/
theorem streamLines_hidden (hvalues : Redactions values) (h : o.HiddenInOutput)
    (stream : DiagnosticStream) : ∀ line ∈ streamLines (values.map String.toList) stream
      (placedText o.stream (output o.stream)), line.Clean o.Covers := by
  refine streamLines_clean fun rawLine hraw ↦ ?_
  rcases h with hgone | ⟨hkept, hbreak, hunsplit⟩
  · exact clean_redact clean_mark (hgone rawLine hraw)
  · obtain hclean | ⟨x, m, y, rfl, hx, hm, hy, hxclean, hyclean⟩ :=
      rawLine_cases (hvalues.nonempty _ o.mem) hkept hbreak hraw
    · exact clean_redact clean_mark hclean
    · refine redact_clean hvalues hm hxclean hyclean ?_
      rw [hx, hy]
      exact hunsplit

/-- No character of a hidden occurrence is in the lines of a snapshot. -/
theorem serviceLogLine_hidden (hvalues : Redactions values) (h : o.HiddenInLog)
    {rawLine : List (Traced Place)} {line : LogLine (Traced Place)} {cut : Bool}
    (hraw : rawLine ∈ o.rawLines)
    (hline : serviceLogLine (values.map String.toList) o.stream rawLine = some (line, cut)) :
    line.Clean o.Covers := by
  rcases h with hgone | ⟨hkept, hbreak, hspace, hunsplit⟩
  · rcases hgone rawLine hraw with hclean | hnone
    · exact serviceLogLine_clean_of_clean hline hclean
    · rw [hnone] at hline
      cases hline
  obtain hclean | ⟨x, m, y, rfl, hx, hm, hy, hxclean, hyclean⟩ :=
    rawLine_cases (hvalues.nonempty _ o.mem) hkept hbreak hraw
  · exact serviceLogLine_clean_of_clean hline hclean
  have hspace' : ∃ a ∈ x, (char a == ' ') = true := by
    rw [← hx] at hspace
    obtain ⟨a, ha, hchar⟩ := List.mem_map.mp hspace
    exact ⟨a, ha, beq_iff_eq.mpr hchar⟩
  have hpart := partition_of_mem hspace' (m ++ y)
  have hparts := partition_append (fun a : Traced Place ↦ char a == ' ') x
  refine serviceLogLine_clean hline ?_ ?_
  · rw [hpart]
    exact fun a ha ↦ hxclean a (by rw [← hparts]; simp [ha])
  · rw [hpart]
    refine redact_clean hvalues hm (fun a ha ↦ hxclean a (by rw [← hparts]; simp [ha])) hyclean ?_
    have hmap := map_partition (fun c : Char ↦ char c == ' ') Traced.char x
    rw [hx] at hmap
    rw [hmap] at hunsplit
    rw [hy]
    exact hunsplit

end Occurrence

section Hides

variable {order : SetOrder} {read : String → String → Except Exc String}
  {runtime : Option RuntimeDeployment} {values : List String}

/-- The lines of the artifact of a process that failed, with the places of their characters, and
whether lines are dropped. -/
def artifactLines (values : List String) (output : ServiceLogStream → List UInt8) :
    List (OutputLine (Traced Place)) × Bool :=
  commandLines (values.map String.toList) (placedText .stdout (output .stdout))
    (placedText .stderr (output .stderr))

/-- The lines of the snapshot of a service log, with the places of their characters, and whether
the snapshot is truncated. -/
def snapshotLines (values : List String) (output : ServiceLogStream → List UInt8) :
    List (LogLine (Traced Place)) × Bool :=
  serviceLogLines (placedText .stdout (output .stdout)) (placedText .stderr (output .stderr)) false
    (values.map String.toList)

/-- The artifact has these lines, however the output arrives. -/
theorem commandArtifact_lines (hvalues : deploymentLogRedactions order read runtime = .ok values)
    (operation : String) (serviceName : Option String) (returncode : Int)
    (chunks : ServiceLogStream → List (List UInt8)) (capturedAt : Time) :
    (commandArtifact order read runtime
        (failedOutput operation serviceName (captureResult returncode chunks)) capturedAt).map
      DiagnosticArtifactDraft.lines
      = .ok ((artifactLines values fun s ↦ (chunks s).flatten).1.map OutputLine.text) := by
  have hlines : (commandLines (values.map String.toList) (capturedText (chunks .stdout))
      (capturedText (chunks .stderr))).1
      = (artifactLines values fun s ↦ (chunks s).flatten).1.map (OutputLine.map Traced.char) := by
    rw [← map_placedText .stdout, ← map_placedText .stderr, ← map_commandLines Traced.forgets,
      Prod.map_fst, artifactLines]
  have htext : (OutputLine.text ∘ OutputLine.map Traced.char : OutputLine (Traced Place) → _)
      = OutputLine.text :=
    funext fun l ↦ text_map Traced.forgets l
  rw [commandArtifact, hvalues]
  simp only [Except.map, failedOutput, captureResult, String.toList_ofList, hlines, List.map_map,
    htext]

/-- The snapshot has these lines, however the output arrives. -/
theorem serviceLogLines_lines (returncode : Int)
    (chunks : ServiceLogStream → List (List UInt8)) :
    ((captureResult returncode chunks).serviceLogLines values).1
      = (snapshotLines values fun s ↦ (chunks s).flatten).1.map LogLine.text := by
  have hlines : (serviceLogLines (capturedText (chunks .stdout)) (capturedText (chunks .stderr))
      false (values.map String.toList)).1
      = (snapshotLines values fun s ↦ (chunks s).flatten).1.map (LogLine.map Traced.char) := by
    rw [← map_placedText .stdout, ← map_placedText .stderr, ← map_serviceLogLines Traced.forgets,
      Prod.map_fst, snapshotLines]
  have htext : (LogLine.text ∘ LogLine.map Traced.char : LogLine (Traced Place) → _)
      = LogLine.text := by
    funext l
    simp only [Function.comp_apply, LogLine.text, LogLine.map, map_keys Traced.forgets]
  rw [← htext, ← List.map_map, ← hlines]
  simp only [CommandResult.serviceLogLines, captureResult, String.toList_ofList, Prod.map_fst]
  rfl

/-- The lines of the artifact and of the snapshot are these, and they have no character of an
occurrence that is hidden in the output of a command, or in the log of a service. -/
theorem redaction_hides (hvalues : deploymentLogRedactions order read runtime = .ok values)
    (operation : String) (serviceName : Option String) (returncode : Int)
    (chunks : ServiceLogStream → List (List UInt8)) (capturedAt : Time) :
    (commandArtifact order read runtime
        (failedOutput operation serviceName (captureResult returncode chunks)) capturedAt).map
      DiagnosticArtifactDraft.lines
      = .ok ((artifactLines values fun s ↦ (chunks s).flatten).1.map OutputLine.text)
    ∧ ((captureResult returncode chunks).serviceLogLines values).1
      = (snapshotLines values fun s ↦ (chunks s).flatten).1.map LogLine.text
    ∧ ∀ o : Occurrence values fun s ↦ (chunks s).flatten,
      (o.HiddenInOutput → ∀ line ∈ (artifactLines values fun s ↦ (chunks s).flatten).1,
        line.Clean o.Covers)
      ∧ (o.HiddenInLog → ∀ line ∈ (snapshotLines values fun s ↦ (chunks s).flatten).1,
        line.Clean o.Covers) := by
  refine ⟨commandArtifact_lines hvalues operation serviceName returncode chunks capturedAt,
    serviceLogLines_lines returncode chunks, fun o ↦ ⟨fun h line hline ↦ ?_, fun h line hline ↦ ?_⟩⟩
  · have hstream : ∀ (stream : ServiceLogStream) (kind : DiagnosticStream),
        ∀ line ∈ streamLines (values.map String.toList) kind
          (placedText stream (chunks stream).flatten), line.Clean o.Covers := by
      intro stream kind
      by_cases heq : stream = o.stream
      · rw [heq]
        exact Occurrence.streamLines_hidden (.of_ok hvalues) h kind
      · exact streamLines_clean fun rawLine hraw ↦ clean_redact clean_mark fun a ha ↦
          Occurrence.placedText_of_ne heq a (subset_of_mem_splitlines hraw ha)
    rw [artifactLines, commandLines] at hline
    rcases List.mem_append.mp (subset_boundedLines _ hline) with hline | hline
    · exact hstream .stdout .stdout line hline
    · exact hstream .stderr .stderr line hline
  · rw [snapshotLines] at hline
    obtain ⟨stream, rawLine, cut, hraw, hline⟩ := mem_serviceLogLines hline
    have hraw' : rawLine ∈ splitlines (placedText stream (chunks stream).flatten) := by
      cases stream <;> exact hraw
    by_cases heq : stream = o.stream
    · rw [heq] at hraw' hline
      refine Occurrence.serviceLogLine_hidden (.of_ok hvalues) h ?_ hline
      rw [Occurrence.rawLines]
      exact hraw'
    · exact serviceLogLine_clean_of_clean hline fun a ha ↦
        Occurrence.placedText_of_ne heq a (subset_of_mem_splitlines hraw' ha)

end Hides

/-! ### A line with a secret -/

theorem placedText_of_le {stream : ServiceLogStream} {output : List UInt8}
    (h : output.length ≤ maxCaptureBytes) :
    placedText stream output = decodeReplace (placed stream output 0) := by
  rw [placedText, keptTail, length_placed, Nat.sub_eq_zero_of_le h, List.drop_zero]

/-- A process that prints a key and ends the line. -/
def keyOutput : ServiceLogStream → List (List UInt8)
  | .stdout => [[105, 115, 32, 107], [101, 121, 10]]
  | .stderr => []

def keyOccurrence : Occurrence ["key"] fun s ↦ (keyOutput s).flatten where
  stream := .stdout
  before := [105, 115, 32]
  value := "key"
  after := [10]
  mem := List.mem_singleton_self _
  split := rfl

theorem keyOccurrence_hidden : keyOccurrence.HiddenInOutput := by
  have hdropped : keyOccurrence.dropped = 0 := Nat.sub_eq_zero_of_le (by decide)
  have hbefore : keyOccurrence.lineBefore = ['i', 's', ' '] := by
    rw [Occurrence.lineBefore, hdropped]
    rfl
  have hafter : keyOccurrence.lineAfter = [] := rfl
  refine .inr ⟨by rw [hdropped]; exact Nat.zero_le _, List.all_iff_forall_prop.mp (by decide), ?_⟩
  rw [hbefore, hafter]
  exact .inr ⟨by decide, .inl (by decide)⟩

theorem key_redactions :
    deploymentLogRedactions lastOrder (fun _ _ ↦ .ok "key") (some longRuntime) = .ok ["key"] :=
  lastOrder_redactions (by decide)

theorem redaction_hides_sample : (artifactLines ["key"] fun s ↦ (keyOutput s).flatten).1.Forall
    fun line ↦ line.Clean keyOccurrence.Covers :=
  List.forall_iff_forall_mem.mpr
    (((redaction_hides key_redactions "migrate" none 1 keyOutput 0).2.2 keyOccurrence).1
      keyOccurrence_hidden)

/-! ### A secret with a separator -/

/-- A value with a form feed, at which lines are split. -/
def separatedSecret : String := "a\x0cb"

def separatedOutput : ServiceLogStream → List UInt8
  | .stdout => [97, 12, 98, 10]
  | .stderr => []

def separatedOccurrence : Occurrence [separatedSecret] separatedOutput where
  stream := .stdout
  before := []
  value := separatedSecret
  after := [10]
  mem := List.mem_singleton_self _
  split := rfl

theorem separatedOccurrence_isolated : separatedOccurrence.Isolated := by
  rintro ⟨stream, before, value, after, hmem, hsplit⟩ hstream hlt -
  obtain rfl : stream = .stdout := hstream
  obtain rfl : value = separatedSecret := List.mem_singleton.mp hmem
  refine ⟨?_, rfl⟩
  have hsplit' : [97, 12, 98, 10] = before ++ [97, 12, 98] ++ after := hsplit
  rcases before with - | ⟨b, - | ⟨b', before⟩⟩
  · rfl
  · simp at hsplit'
  · have hlength := congrArg List.length hsplit'
    simp only [List.length_append, List.length_cons, List.length_nil] at hlength
    omega

/-- A secret with a separator is accepted, and its pieces are shown on two lines. -/
theorem redaction_shows_pieces :
    ¬ ∀ (order : SetOrder) (read : String → String → Except Exc String)
      (runtime : Option RuntimeDeployment) (values : List String),
      deploymentLogRedactions order read runtime = .ok values →
      ∀ (output : ServiceLogStream → List UInt8) (o : Occurrence values output), o.Isolated →
        (10 : UInt8) ∈ o.after → ∀ line ∈ (artifactLines values output).1, line.Clean o.Covers := by
  intro hclaim
  have hstdout : streamLines [separatedSecret.toList] .stdout
      (placedText .stdout (separatedOutput .stdout))
      = [⟨.stdout, [⟨'a', some (.stdout, 0)⟩]⟩, ⟨.stdout, [⟨'b', some (.stdout, 2)⟩]⟩] := by
    rw [placedText_of_le (by decide)]
    rfl
  have hstderr : streamLines [separatedSecret.toList] .stderr
      (placedText .stderr (separatedOutput .stderr)) = [] := by
    rw [placedText_of_le (by decide)]
    rfl
  have hlines : artifactLines [separatedSecret] separatedOutput
      = ([⟨.stdout, [⟨'a', some (.stdout, 0)⟩]⟩, ⟨.stdout, [⟨'b', some (.stdout, 2)⟩]⟩], false) := by
    rw [artifactLines, commandLines, List.map_singleton, hstdout, hstderr, List.append_nil,
      boundedLines, if_neg (by decide +kernel)]
  have hclean := hclaim lastOrder _ (some longRuntime) [separatedSecret]
    (lastOrder_redactions (by decide)) separatedOutput separatedOccurrence
    separatedOccurrence_isolated (List.mem_singleton_self _)
  rw [hlines] at hclean
  exact hclean _ List.mem_cons_self _ List.mem_cons_self _ rfl ⟨rfl, by decide, by decide⟩

end Heimdall
