import Heimdall.Runtime.Models
import Heimdall.Text.Trace

/-!
# Lines of service logs

What the readers of container logs and command output share: the bound on a line, the timestamp
`docker logs --timestamps` puts before it, and the secret values that are redacted
(`deploymentLogRedactions`).

Text is a list of symbols that may remember where they were read, so that the same definitions say
what becomes of each character of an output.
-/

namespace Heimdall

open Text Symbol

def serviceLogTail : ℕ := 200

def serviceLogMaxLineBytes : ℕ := 16 * 1024

inductive ServiceLogStream where
  | stdout
  | stderr
deriving DecidableEq

structure ServiceLogLine where
  timestamp : String
  stream : ServiceLogStream
  message : String
deriving DecidableEq

/-! ## Timestamps -/

/-- The zeros of the decimal digits, which `\d` matches in text. -/
def decimalZeros : List ℕ :=
  [0x30, 0x660, 0x6F0, 0x7C0, 0x966, 0x9E6, 0xA66, 0xAE6, 0xB66, 0xBE6, 0xC66, 0xCE6, 0xD66, 0xDE6,
    0xE50, 0xED0, 0xF20, 0x1040, 0x1090, 0x17E0, 0x1810, 0x1946, 0x19D0, 0x1A80, 0x1A90, 0x1B50,
    0x1BB0, 0x1C40, 0x1C50, 0xA620, 0xA8D0, 0xA900, 0xA9D0, 0xA9F0, 0xAA50, 0xABF0, 0xFF10,
    0x104A0, 0x10D30, 0x10D40, 0x11066, 0x110F0, 0x11136, 0x111D0, 0x112F0, 0x11450, 0x114D0,
    0x11650, 0x116C0, 0x116D0, 0x116DA, 0x11730, 0x118E0, 0x11950, 0x11BF0, 0x11C50, 0x11D50,
    0x11DA0, 0x11F50, 0x16130, 0x16A60, 0x16AC0, 0x16B50, 0x16D70, 0x1CCF0, 0x1D7CE, 0x1D7D8,
    0x1D7E2, 0x1D7EC, 0x1D7F6, 0x1E140, 0x1E2F0, 0x1E4F0, 0x1E5F1, 0x1E950, 0x1FBF0]

def isDecimal (c : Char) : Bool := decimalZeros.any fun z ↦ z ≤ c.toNat && c.toNat < z + 10

/-- A text of one length, made of digits (`d`) and of the other characters of a pattern. -/
def matchesPattern : List Char → List Char → Bool
  | [], cs => cs.isEmpty
  | _ :: _, [] => false
  | p :: ps, c :: cs => (if p = 'd' then isDecimal c else c = p) && matchesPattern ps cs

/-- The fraction of a second, up to nine digits after a point, and what comes after it. -/
def dropFraction : List Char → Option (List Char)
  | '.' :: cs =>
    if 1 ≤ (cs.takeWhile isDecimal).length ∧ (cs.takeWhile isDecimal).length ≤ 9 then
      some (cs.dropWhile isDecimal)
    else none
  | cs => some cs

def isZone (cs : List Char) : Bool :=
  cs == ['Z'] || matchesPattern "+dd:dd".toList cs || matchesPattern "-dd:dd".toList cs

/-- `_DOCKER_TIMESTAMP`: a full match of the pattern. -/
def isDockerTimestamp (cs : List Char) : Bool :=
  matchesPattern "dddd-dd-ddTdd:dd:dd".toList (cs.take 19)
    && (dropFraction (cs.drop 19)).any isZone

theorem length_of_matchesPattern {ps cs : List Char} (h : matchesPattern ps cs = true) :
    cs.length = ps.length := by
  induction ps generalizing cs with
  | nil => simpa [matchesPattern] using h
  | cons p ps ih =>
    cases cs with
    | nil => simp [matchesPattern] at h
    | cons c cs =>
      rw [matchesPattern, Bool.and_eq_true] at h
      rw [List.length_cons, List.length_cons, ih h.2]

theorem length_of_isZone {cs : List Char} (h : isZone cs = true) : cs.length ≤ 6 := by
  simp only [isZone, Bool.or_eq_true, beq_iff_eq] at h
  obtain (rfl | h) | h := h
  · decide
  · exact (length_of_matchesPattern h).le
  · exact (length_of_matchesPattern h).le

theorem length_of_dropFraction {cs rest : List Char} (h : dropFraction cs = some rest) :
    cs.length ≤ rest.length + 10 := by
  unfold dropFraction at h
  split at h
  next cs =>
    split at h
    next hdigits =>
      obtain rfl := Option.some.inj h
      have hlen := congrArg List.length (List.takeWhile_append_dropWhile (p := isDecimal) (l := cs))
      rw [List.length_append] at hlen
      simp only [List.length_cons]
      omega
    next => cases h
  next =>
    obtain rfl := Option.some.inj h
    omega

theorem length_of_isDockerTimestamp {cs : List Char} (h : isDockerTimestamp cs = true) :
    cs.length ≤ 35 := by
  rw [isDockerTimestamp, Bool.and_eq_true, Option.any_eq_true] at h
  obtain ⟨-, zone, hfraction, hzone⟩ := h
  have h₁ := length_of_dropFraction hfraction
  have h₂ := length_of_isZone hzone
  rw [List.length_drop] at h₁
  omega

example : isDockerTimestamp "2026-08-07T01:00:00.5+09:00".toList
    ∧ ¬ isDockerTimestamp "2026-08-07T01:00:00.Z".toList := by decide

/-! ## Bounded lines -/

/-- `_bounded_utf8`: the bytes of a text up to a limit, less the beginning of a character cut in
two. -/
def boundedUtf8 {α : Type} [Symbol α] (value : List α) (limit : ℕ) : List α × Bool :=
  let payload := value.flatMap fun a ↦ (String.utf8EncodeChar (char a)).map fun b ↦ (b, a)
  if payload.length ≤ limit then (value, false)
  else (Utf8.decode Prod.fst (fun c b ↦ put c b.2) (fun _ ↦ []) (payload.take limit), true)

theorem length_boundedUtf8 {α : Type} [Symbol α] (value : List α) (limit : ℕ) :
    (Utf8.encode ((boundedUtf8 value limit).1.map char)).length ≤ limit := by
  rw [boundedUtf8]
  split
  next h => simpa [Utf8.encode, List.length_flatMap, List.map_map, Function.comp_def] using h
  next =>
    exact (Utf8.length_encode_decode (fun c b ↦ char_put c b.2) _).trans (List.length_take_le _ _)

theorem map_boundedUtf8 {α β : Type} [Symbol α] [Symbol β] {f : α → β} (hf : Forgets f)
    (value : List α) (limit : ℕ) :
    ((boundedUtf8 value limit).1.map f, (boundedUtf8 value limit).2)
      = boundedUtf8 (value.map f) limit := by
  have hpayload : (value.flatMap fun a ↦ (String.utf8EncodeChar (char a)).map fun b ↦ (b, a)).map
      (Prod.map id f) = (value.map f).flatMap fun a ↦
        (String.utf8EncodeChar (char a)).map fun b ↦ (b, a) := by
    simp [List.map_flatMap, List.flatMap_map, hf.char, Function.comp_def]
  have hlength := congrArg List.length hpayload
  rw [List.length_map] at hlength
  rw [boundedUtf8, boundedUtf8, ← hlength]
  split
  · rfl
  · rw [Prod.mk.injEq, ← hpayload, ← List.map_take]
    exact ⟨Utf8.map_decode (fun _ ↦ rfl) (fun c b ↦ hf.put c b.2) fun _ ↦ rfl, rfl⟩

theorem clean_boundedUtf8 {ι : Type} {bad : ι → Prop} {value : List (Traced ι)}
    (h : ∀ a ∈ value, Clean bad a) (limit : ℕ) :
    ∀ a ∈ (boundedUtf8 value limit).1, Clean bad a := by
  intro a ha
  rw [boundedUtf8] at ha
  split at ha
  · exact h a ha
  · obtain ⟨b, hb, ⟨c, rfl⟩ | hbad⟩ := Utf8.madeFrom_of_mem_decode ha
    · obtain ⟨a', ha', hb'⟩ := List.mem_flatMap.mp (List.mem_of_mem_take hb)
      obtain ⟨byte, -, rfl⟩ := List.mem_map.mp hb'
      exact (h a' ha').put c
    · simp at hbad

/-! ## Redactions -/

/-- The order in which the members of a set of texts come, each of them once. -/
structure SetOrder where
  members : List String → List String
  nodup : ∀ values, (members values).Nodup
  mem_iff : ∀ values v, v ∈ members values ↔ v ∈ values

def redactionMark : String := "[REDACTED]"

namespace RuntimeDeployment

/-- The references and fingerprints of the secrets a deployment can print. -/
def logSecrets (runtime : RuntimeDeployment) : List (String × String) :=
  runtime.services.flatMap (fun service ↦
      service.secrets.map fun secret ↦ (secret.reference, secret.fingerprint))
    ++ match runtime.database with
      | some database =>
        if runtime.services.any (·.projectDatabaseAccess) then
          [(database.credentialReference, database.credentialFingerprint)]
        else []
      | none => []

end RuntimeDeployment

/-- A value that cannot be replaced within a line. -/
def unredactable (value : String) : Bool :=
  value.isEmpty || value.toList.contains '\n' || value.toList.contains '\r'
    || (Utf8.encode value.toList).length > serviceLogMaxLineBytes

def redactionUnavailable : Exc := .serviceLog "SERVICE_LOG_REDACTION_UNAVAILABLE"

/-- The values to redact, the longest first. `runtime` is `none` when the snapshot of the
deployment is rejected. -/
def deploymentLogRedactions (order : SetOrder) (read : String → String → Except Exc String)
    (runtime : Option RuntimeDeployment) : Except Exc (List String) :=
  match runtime with
  | none => .error redactionUnavailable
  | some runtime =>
    match runtime.logSecrets.mapM fun secret ↦ read secret.1 secret.2 with
    | .error .osError | .error .unicode | .error .secretStore => .error redactionUnavailable
    | .error x => .error x
    | .ok values =>
      if values.any unredactable then .error redactionUnavailable
      else .ok ((order.members values).mergeSort fun a b ↦ b.length ≤ a.length)

/-- What is known of the values to redact. -/
structure Redactions (values : List String) : Prop where
  nonempty : ∀ v ∈ values, v.toList ≠ []
  noLineFeed : ∀ v ∈ values, '\n' ∉ v.toList
  noReturn : ∀ v ∈ values, '\r' ∉ v.toList
  bounded : ∀ v ∈ values, (Utf8.encode v.toList).length ≤ serviceLogMaxLineBytes
  nodup : values.Nodup
  sorted : values.Pairwise fun v w ↦ w.length ≤ v.length

variable {order : SetOrder} {read : String → String → Except Exc String}
  {runtime : Option RuntimeDeployment} {redactions : List String}

theorem Redactions.of_ok (h : deploymentLogRedactions order read runtime = .ok redactions) :
    Redactions redactions := by
  unfold deploymentLogRedactions at h
  split at h
  · cases h
  split at h
  case h_5 values _ =>
    split at h
    · cases h
    next hall =>
      obtain rfl := Except.ok.inj h
      have hgood : ∀ v ∈ (order.members values).mergeSort fun a b ↦ b.length ≤ a.length,
          unredactable v = false := by
        intro v hv
        have hv' : v ∈ values := (order.mem_iff values v).mp (List.mem_mergeSort.mp hv)
        exact Bool.eq_false_iff.mpr fun hbad ↦ hall (List.any_eq_true.mpr ⟨v, hv', hbad⟩)
      simp only [unredactable, Bool.or_eq_false_iff, decide_eq_false_iff_not, not_lt,
        String.isEmpty_eq_false_iff, List.contains_eq_mem] at hgood
      refine ⟨fun v hv ↦ ?_, fun v hv ↦ (hgood v hv).1.1.2, fun v hv ↦ (hgood v hv).1.2,
        fun v hv ↦ (hgood v hv).2, ?_, ?_⟩
      · simpa using (hgood v hv).1.1.1
      · exact (List.mergeSort_perm _ _).nodup_iff.mpr (order.nodup values)
      · have hpairwise : ((order.members values).mergeSort fun a b ↦ b.length ≤ a.length).Pairwise
            fun a b ↦ decide (b.length ≤ a.length) := by
          refine List.pairwise_mergeSort (fun a b c hab hbc ↦ ?_) (fun a b ↦ ?_) _
          · simp only [decide_eq_true_eq] at hab hbc ⊢
            exact hbc.trans hab
          · simpa using Nat.le_total b.length a.length
        simpa using hpairwise
  all_goals cases h

end Heimdall
