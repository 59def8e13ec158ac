import Heimdall.Text.Lines
import Heimdall.Text.Replace
import Heimdall.Text.Utf8

/-!
# Following the characters of an output

Bytes that carry where they come from (`Octet`) are decoded to characters that carry the place of
their first byte. A symbol is `Clean` when it does not come from a given set of places; decoding,
replacing and cutting make clean text from clean text. Forgetting the places turns a computation on
traced text into the same computation on plain text.
-/

namespace Text

open Symbol

/-- A type whose values are bytes that may carry more, read as symbols of another type. -/
class Octet (β : Type) (α : outParam Type) [Symbol α] where
  byte : β → UInt8
  /-- A character that begins with a byte. -/
  read : Char → β → α
  char_read : ∀ c b, char (read c b) = c

instance : Octet UInt8 Char := ⟨id, fun c _ ↦ c, fun _ _ ↦ rfl⟩

instance {ι : Type} : Octet (UInt8 × ι) (Traced ι) := ⟨Prod.fst, fun c b ↦ ⟨c, some b.2⟩, fun _ _ ↦ rfl⟩

section Decode

variable {α β : Type} [Symbol α] [Octet β α]

/-- `decode("utf-8", errors="replace")` -/
def decodeReplace (t : List β) : List α :=
  Utf8.decode Octet.byte Octet.read (fun b ↦ [Octet.read '\uFFFD' b]) t

/-- An encoded text is decoded as such wherever it stands. -/
theorem decodeReplace_middle {x m y : List β} {cs : List Char} (hne : cs ≠ [])
    (hm : m.map Octet.byte = Utf8.encode cs) :
    (decodeReplace m).map char = cs ∧ decodeReplace (x ++ m ++ y)
      = decodeReplace x ++ decodeReplace m ++ decodeReplace y :=
  Utf8.decode_append_encode Octet.char_read hm hne

end Decode

/-! ## Forgetting the places -/

section Forget

variable {ι : Type}

theorem map_decodeReplace (t : List (UInt8 × ι)) :
    (decodeReplace t).map Traced.char = decodeReplace (t.map Prod.fst) :=
  Utf8.map_decode (fun _ ↦ rfl) (fun _ _ ↦ rfl) fun _ ↦ rfl

theorem map_redact_char {mark : List (Traced ι)} {ss : List (List Char)} (t : List (Traced ι)) :
    (redact char mark ss t).map Traced.char = redact char (mark.map Traced.char) ss (t.map Traced.char) :=
  map_redact fun _ ↦ rfl

end Forget

/-! ## Clean symbols -/

section Clean

variable {ι : Type} (bad : ι → Prop)

/-- The symbol does not come from a bad place. -/
def Clean (a : Traced ι) : Prop := ∀ i, a.origin = some i → ¬ bad i

variable {bad} {mark t x m y : List (Traced ι)} {bytes : List (UInt8 × ι)} {ss : List (List Char)}

theorem clean_lit (c : Char) : Clean bad (lit c) := fun i h ↦ by cases h

theorem Clean.put {a : Traced ι} (h : Clean bad a) (c : Char) : Clean bad (put c a) := h

theorem clean_decodeReplace (h : ∀ b ∈ bytes, ¬ bad b.2) :
    ∀ a ∈ decodeReplace bytes, Clean bad a := by
  intro a ha i hi
  obtain ⟨b, hb, ⟨c, rfl⟩ | hbad⟩ := Utf8.madeFrom_of_mem_decode ha
  · obtain rfl := Option.some.inj hi
    exact h b hb
  · obtain rfl := List.mem_singleton.mp hbad
    obtain rfl := Option.some.inj hi
    exact h b hb

theorem clean_redact (hmark : ∀ a ∈ mark, Clean bad a) (ht : ∀ a ∈ t, Clean bad a) :
    ∀ a ∈ redact char mark ss t, Clean bad a :=
  fun a ha ↦ (mem_redact ha).elim (hmark a) (ht a)

end Clean

end Text
