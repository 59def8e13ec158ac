import Mathlib

/-!
# UUIDs

A UUID is its thirty-two hexadecimal digits, so the two texts the program uses — the plain digits
and the form with dashes — are projections of the value itself.
-/

/-- A UUID, by its hexadecimal digits. -/
structure Uuid where
  /-- The digits, most significant first. -/
  digits : List (Fin 16)
  /-- There are thirty-two of them. -/
  length_digits : digits.length = 32
deriving DecidableEq

namespace Uuid

/-- The `n` lowest hexadecimal digits of a number, most significant first. -/
def hexDigits : ℕ → ℕ → List (Fin 16)
  | 0, _ => []
  | n + 1, x => hexDigits n (x / 16) ++ [Fin.ofNat 16 x]

theorem length_hexDigits (n x : ℕ) : (hexDigits n x).length = n := by
  induction n generalizing x with
  | zero => rfl
  | succ n ih => simp [hexDigits, ih]

/-- The UUID with a given value. -/
def ofNat (x : ℕ) : Uuid := ⟨hexDigits 32 x, length_hexDigits 32 x⟩

/-- One digit as a character. -/
def digitChar (d : Fin 16) : Char := Nat.digitChar d

theorem digitChar_injective : Function.Injective digitChar := by
  have key : ∀ a b : Fin 16, digitChar a = digitChar b → a = b := by decide
  exact fun a b h ↦ key a b h

theorem digitChar_ne_dash (d : Fin 16) : digitChar d ≠ '-' := by
  have key : ∀ a : Fin 16, digitChar a ≠ '-' := by decide
  exact key d

/-- The digits as characters. -/
def chars (u : Uuid) : List Char := u.digits.map digitChar

/-- The text without dashes. -/
def hex (u : Uuid) : String := String.ofList u.chars

/-- The first twelve digits. -/
def hex12 (u : Uuid) : String := String.ofList (u.chars.take 12)

/-- The text in groups of 8, 4, 4, 4 and 12 digits. -/
def str (u : Uuid) : String :=
  String.ofList (u.chars.take 8 ++ '-' :: ((u.chars.drop 8).take 4 ++ '-' ::
    ((u.chars.drop 12).take 4 ++ '-' :: ((u.chars.drop 16).take 4 ++ '-' :: u.chars.drop 20))))

theorem chars_injective : Function.Injective chars := by
  intro u v h
  have hd : u.digits = v.digits := List.map_injective_iff.mpr digitChar_injective h
  cases u
  cases v
  cases hd
  rfl

/-- Without its dashes the text is the digits again. -/
theorem filter_str (u : Uuid) : u.str.toList.filter (· ≠ '-') = u.chars := by
  have hkeep : ∀ l : List Char, (∀ c ∈ l, c ≠ '-') → l.filter (· ≠ '-') = l := fun l h ↦
    List.filter_eq_self.mpr fun c hc ↦ by simpa using h c hc
  have hchars : ∀ c ∈ u.chars, c ≠ '-' := by
    intro c hc
    obtain ⟨d, -, rfl⟩ := List.mem_map.mp hc
    exact digitChar_ne_dash d
  have htake : ∀ i n, ∀ c ∈ (u.chars.drop i).take n, c ≠ '-' := fun i n c hc ↦
    hchars c (List.mem_of_mem_drop (List.mem_of_mem_take hc))
  have hdash : ('-' ≠ '-') = False := by simp
  simp only [str, String.toList_ofList, List.filter_append, List.filter_cons, hdash, decide_false,
    Bool.false_eq_true, if_false]
  rw [hkeep _ (htake 8 4), hkeep _ (htake 12 4), hkeep _ (htake 16 4),
    hkeep _ fun c hc ↦ hchars c (List.mem_of_mem_take hc),
    hkeep _ fun c hc ↦ hchars c (List.mem_of_mem_drop hc)]
  have hsplit : ∀ i n, (u.chars.drop i).take n ++ u.chars.drop (i + n) = u.chars.drop i :=
    fun i n ↦ by rw [← List.drop_drop, List.take_append_drop]
  rw [hsplit 16 4, hsplit 12 4, hsplit 8 4, List.take_append_drop]

theorem str_injective : Function.Injective str := by
  intro u v h
  apply chars_injective
  rw [← filter_str u, ← filter_str v, h]

theorem hex_injective : Function.Injective hex := by
  intro u v h
  exact chars_injective (String.ofList_inj.mp h)

/-! ## Reading -/

/-- `str.replace(pattern, "")`; the number counts the characters of a match still to be dropped. -/
def without (pattern : List Char) : ℕ → List Char → List Char
  | _, [] => []
  | skip + 1, _ :: cs => without pattern skip cs
  | 0, c :: cs =>
    if pattern.isPrefixOf (c :: cs) then without pattern (pattern.length - 1) cs
    else c :: without pattern 0 cs

/-- `str.strip` of the characters that satisfy `p`. -/
def strip (p : Char → Bool) (cs : List Char) : List Char :=
  ((cs.dropWhile p).reverse.dropWhile p).reverse

/-- The white space of a header text, which is Latin-1. -/
def isBlank (c : Char) : Bool :=
  (9 ≤ c.val && c.val ≤ 13) || (28 ≤ c.val && c.val ≤ 32) || c.val == 0x85 || c.val == 0xa0

def digitValue (c : Char) : Option ℕ :=
  if '0' ≤ c && c ≤ '9' then some (c.toNat - '0'.toNat)
  else if 'a' ≤ c && c ≤ 'f' then some (c.toNat - 'a'.toNat + 10)
  else if 'A' ≤ c && c ≤ 'F' then some (c.toNat - 'A'.toNat + 10)
  else none

/-- Hexadecimal digits with single underscores between them; the flag says that an underscore may
come next. -/
def readDigits (value : ℕ) (separable : Bool) : List Char → Option ℕ
  | [] => if separable then some value else none
  | '_' :: cs => if separable then readDigits value false cs else none
  | c :: cs =>
    match digitValue c with
    | some d => readDigits (16 * value + d) true cs
    | none => none

/-- `int(text, 16)` without the sign. -/
def readNat (cs : List Char) : Option ℕ :=
  match cs with
  | '0' :: 'x' :: '_' :: cs | '0' :: 'X' :: '_' :: cs => readDigits 0 false cs
  | '0' :: 'x' :: cs | '0' :: 'X' :: cs => readDigits 0 false cs
  | cs => readDigits 0 false cs

/-- `int(text, 16)`. -/
def readInt (cs : List Char) : Option Int :=
  match strip isBlank cs with
  | '-' :: cs => (readNat cs).map fun n ↦ -(n : Int)
  | '+' :: cs => (readNat cs).map fun n ↦ (n : Int)
  | cs => (readNat cs).map fun n ↦ (n : Int)

/-- `UUID(text)`. -/
def parse (text : String) : Option Uuid :=
  let plain := without "uuid:".toList 0 (without "urn:".toList 0 text.toList)
  let digits := (strip (fun c ↦ c == '{' || c == '}') plain).filter (· ≠ '-')
  if digits.length = 32 then
    match readInt digits with
    | some (.ofNat n) => some (ofNat n)
    | _ => none
  else none

end Uuid
