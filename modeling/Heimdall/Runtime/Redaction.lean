import Heimdall.Runtime.LogSnapshot
import Heimdall.Runtime.LogStream
import Heimdall.Text.Redaction

/-!
# Secrets are replaced

Messages of service logs are redacted as text in a snapshot (`redactText`) and as bytes in a stream
(`redactBytes`). Of secrets that a mark can neither contain nor be part of, none is left in the
outcome, and the outcome is the message with disjoint occurrences of secrets replaced
(`redact_secrets`).
-/

namespace Heimdall

open Text Symbol

/-- A snapshot's message after `message.replace(value, "[REDACTED]")` for each of the values. -/
def redactText (values : List String) (message : List Char) : List Char :=
  redact char mark (values.map String.toList) message

/-- A stream's message after `message.replace(value, b"[REDACTED]")` for each of the values. -/
def redactBytes (values : List String) (message : List UInt8) : List UInt8 :=
  redact id (Utf8.encode redactionMark.toList) (redactionBytes values) message

/-- A secret that a mark can neither contain nor be part of. -/
structure Redactable (secret : String) : Prop where
  nonempty : secret ≠ ""
  noOpening : '[' ∉ secret.toList
  noClosing : ']' ∉ secret.toList
  notInMark : ¬ secret.toList <:+: "REDACTED".toList

section Secrets

variable {secret : String} {secrets : List String}

theorem Redactable.outside (h : Redactable secret) :
    Outside '[' ']' "REDACTED".toList secret.toList :=
  ⟨by simpa using h.nonempty, h.noOpening, h.noClosing, h.notInMark⟩

theorem Redactable.outside_encode (h : Redactable secret) :
    Outside (91 : UInt8) 93 (Utf8.encode "REDACTED".toList) (Utf8.encode secret.toList) where
  nonempty := Utf8.encode_ne_nil (by simpa using h.nonempty)
  lo_notMem hmem := h.noOpening (Utf8.mem_of_mem_encode hmem (by decide))
  hi_notMem hmem := h.noClosing (Utf8.mem_of_mem_encode hmem (by decide))
  notInside hocc := h.notInMark (Utf8.infix_of_encode hocc (List.all_iff_forall_prop.mp (by decide)))

theorem outside_texts (h : ∀ s ∈ secrets, Redactable s) :
    ∀ s ∈ secrets.map String.toList, Outside '[' ']' "REDACTED".toList s := by
  intro s hs
  obtain ⟨secret, hsecret, rfl⟩ := List.mem_map.mp hs
  exact (h secret hsecret).outside

theorem outside_bytes (h : ∀ s ∈ secrets, Redactable s) :
    ∀ s ∈ redactionBytes secrets, Outside (91 : UInt8) 93 (Utf8.encode "REDACTED".toList) s := by
  intro s hs
  obtain ⟨secret, hsecret, rfl⟩ := List.mem_map.mp hs
  exact (h secret hsecret).outside_encode

theorem mark_keys : (mark : List Char).map char = '[' :: ("REDACTED".toList ++ [']']) := by
  decide

theorem mark_bytes : (Utf8.encode redactionMark.toList).map id
    = (91 : UInt8) :: (Utf8.encode "REDACTED".toList ++ [93]) := by
  decide

theorem redactText_clean (h : ∀ s ∈ secrets, Redactable s) (message : List Char) :
    ∀ s ∈ secrets, ¬ s.toList <:+: redactText secrets message := by
  intro s hs
  have hclean := not_infix_redact (t := message) mark_keys (outside_texts h) s.toList
    (List.mem_map_of_mem hs)
  have hkeys : (redactText secrets message).map char = redactText secrets message := List.map_id _
  rwa [← redactText, hkeys] at hclean

theorem redactBytes_clean (h : ∀ s ∈ secrets, Redactable s) (message : List UInt8) :
    ∀ s ∈ secrets, ¬ Utf8.encode s.toList <:+: redactBytes secrets message := by
  intro s hs
  have hclean := not_infix_redact (t := message) mark_bytes (outside_bytes h)
    (Utf8.encode s.toList) (List.mem_map_of_mem hs)
  rwa [← redactBytes, List.map_id] at hclean

/-- A line of a snapshot shows the redacted message of a line of the output. -/
theorem serviceLogLines_message {result : CommandResult} {line : ServiceLogLine}
    (h : line ∈ (result.serviceLogLines secrets).1) :
    ∃ rawLine ∈ splitlines (match line.stream with
        | .stdout => result.stdout.toList
        | .stderr => result.stderr.toList),
      line.message = String.ofList (boundedUtf8
        (redactText secrets (partition (· == ' ') rawLine).2.2) serviceLogMaxLineBytes).1 := by
  rw [CommandResult.serviceLogLines, Prod.map_fst] at h
  obtain ⟨l, hl, rfl⟩ := List.mem_map.mp h
  obtain ⟨stream, rawLine, cut, hraw, hline⟩ := mem_serviceLogLines hl
  simp only [serviceLogLine] at hline
  split at hline
  · cases hline
  · obtain ⟨rfl, -⟩ := Prod.mk.inj (Option.some.inj hline)
    refine ⟨rawLine, hraw, congrArg String.ofList ?_⟩
    exact List.map_id _

/-- A line of a stream shows the redacted message of a line that was read. -/
theorem receive_message {items : List StreamItem} {line : ServiceLogLine} {truncated : Bool}
    (h : (receive (redactionBytes secrets) items).1 = .ok (some (.line line truncated))) :
    ∃ output, .line output ∈ items ∧ ∃ timestamp message,
      splitTimestamp output.payload = some (timestamp, message)
        ∧ line.message = String.ofList (boundedUtf8 (Utf8.decode id (fun c _ ↦ c)
          (fun _ ↦ ['\uFFFD']) ((redactBytes secrets message).take serviceLogMaxLineBytes))
          serviceLogMaxLineBytes).1 := by
  induction items with
  | nil => cases h
  | cons item items ih =>
    cases item with
    | idle => cases h
    | ended returncode =>
      rw [receive] at h
      split at h <;> cases h
    | line output =>
      rw [receive] at h
      cases hevent : logLine (redactionBytes secrets) output with
      | none =>
        rw [hevent] at h
        obtain ⟨output', hmem, hshown⟩ := ih h
        exact ⟨output', List.mem_cons_of_mem _ hmem, hshown⟩
      | some event =>
        rw [hevent] at h
        obtain rfl : event = .line line truncated := by simpa using h
        have hshown := logLine_eq (redactionBytes secrets) output
        rw [hevent] at hshown
        obtain ⟨⟨timestamp, message⟩, hsplit, hline⟩ := Option.map_eq_some_iff.mp hshown.symm
        refine ⟨output, List.mem_cons_self, timestamp, message, hsplit, ?_⟩
        exact (congrArg ServiceLogLine.message (Option.some.inj hline)).symm

/-- **Redaction leaves no secret**, in whatever order the secrets are replaced: none occurs in the
outcome, as text and as bytes, and the outcome is the message with disjoint occurrences replaced.
The lines of snapshots and streams are made of such outcomes. -/
theorem redact_secrets (h : ∀ s ∈ secrets, Redactable s) :
    (∀ message : List Char, (∀ s ∈ secrets, ¬ s.toList <:+: redactText secrets message)
      ∧ Redacted id redactionMark.toList (secrets.map String.toList) message
        (redactText secrets message))
    ∧ (∀ message : List UInt8,
      (∀ s ∈ secrets, ¬ Utf8.encode s.toList <:+: redactBytes secrets message)
      ∧ Redacted id (Utf8.encode redactionMark.toList) (redactionBytes secrets) message
        (redactBytes secrets message))
    ∧ (∀ (result : CommandResult), ∀ line ∈ (result.serviceLogLines secrets).1,
      ∃ rawLine ∈ splitlines (match line.stream with
          | .stdout => result.stdout.toList
          | .stderr => result.stderr.toList),
        line.message = String.ofList (boundedUtf8
          (redactText secrets (partition (· == ' ') rawLine).2.2) serviceLogMaxLineBytes).1)
    ∧ ∀ (items : List StreamItem) (line : ServiceLogLine) (truncated : Bool),
      (receive (redactionBytes secrets) items).1 = .ok (some (.line line truncated)) →
      ∃ output, .line output ∈ items ∧ ∃ timestamp message,
        splitTimestamp output.payload = some (timestamp, message)
          ∧ line.message = String.ofList (boundedUtf8 (Utf8.decode id (fun c _ ↦ c)
            (fun _ ↦ ['\uFFFD']) ((redactBytes secrets message).take serviceLogMaxLineBytes))
            serviceLogMaxLineBytes).1 := by
  refine ⟨fun message ↦ ⟨redactText_clean h message, ?_⟩,
    fun message ↦ ⟨redactBytes_clean h message, ?_⟩, fun _ _ ↦ serviceLogLines_message,
    fun _ _ _ ↦ receive_message⟩
  · have hmark : (mark : List Char) = redactionMark.toList := List.map_id _
    have hredacted := redacted_redact mark_keys (outside_texts h) message
    rw [hmark] at hredacted
    exact hredacted
  · exact redacted_redact mark_bytes (outside_bytes h) message

/-- A text with a letter that is not in the mark. -/
theorem Redactable.of_mem {secret : String} {c : Char} (hc : c ∈ secret.toList)
    (hmark : c ∉ "REDACTED".toList) (hopen : '[' ∉ secret.toList) (hclose : ']' ∉ secret.toList) :
    Redactable secret where
  nonempty hempty := by simp [hempty] at hc
  noOpening := hopen
  noClosing := hclose
  notInMark hocc := hmark (hocc.subset hc)

/-- Nested, overlapping and repeated secrets. -/
theorem redact_secrets_sample :
    ¬ "abab".toList <:+: redactText ["abab", "ab", "b"] "ababab[b]".toList := by
  have hall : ∀ s ∈ ["abab", "ab", "b"], Redactable s := by
    simp only [List.forall_mem_cons, List.not_mem_nil, false_implies, implies_true, and_true]
    have hb : 'b' ∉ "REDACTED".toList := by decide
    exact ⟨.of_mem (c := 'b') (by decide) hb (by decide) (by decide),
      .of_mem (c := 'b') (by decide) hb (by decide) (by decide),
      .of_mem (c := 'b') (by decide) hb (by decide) (by decide)⟩
  exact ((redact_secrets hall).1 "ababab[b]".toList).1 "abab" List.mem_cons_self

end Secrets

end Heimdall
