import Mathlib

/-!
# JSON texts

A printer in the compact style (`separators=(",", ":")`) and a reader for whole documents. The
reader is a total function: it runs on fuel, one unit for each character or nesting level, and
`loads` supplies the length of the text, which is always enough (`loads_dumps`).

## What the reader keeps

Objects are association lists in the order of the text; a repeated key keeps its first position and
takes its last value. Numbers with a fraction or an exponent are kept as an exact decimal
`mantissa · 10 ^ exponent`. The literals `NaN`, `Infinity` and `-Infinity` are read, all as
`nonfinite`. An escaped surrogate that has no partner is no character, and a text that has one is
rejected.

## Round trip

`loads (dumps v) = some v` for values without floating-point numbers whose objects have distinct
keys, whether or not the printer escapes everything outside ASCII.
-/

namespace Json

/-- A JSON value. -/
inductive Value where
  | null
  | bool (b : Bool)
  | int (n : Int)
  | float (mantissa exponent : Int)
  | nonfinite
  | str (s : String)
  | arr (xs : List Value)
  | obj (fields : List (String × Value))

namespace Value

/-- The value an object has under a key. -/
def get? (k : String) : Value → Option Value
  | .obj fields => fields.lookup k
  | _ => none

mutual
/-- No floating-point number occurs, and the keys of each object are distinct. -/
def Printable : Value → Prop
  | .float _ _ | .nonfinite => False
  | .arr xs => PrintableElems xs
  | .obj fields => PrintableFields fields ∧ (fields.map Prod.fst).Nodup
  | .null | .bool _ | .int _ | .str _ => True

/-- Every element is printable. -/
def PrintableElems : List Value → Prop
  | [] => True
  | x :: xs => x.Printable ∧ PrintableElems xs

/-- Every field value is printable. -/
def PrintableFields : List (String × Value) → Prop
  | [] => True
  | (_, x) :: fs => x.Printable ∧ PrintableFields fs
end

/-- A text PostgreSQL stores. -/
def isStorable (s : String) : Bool := !s.toList.contains '\x00'

mutual
/-- What PostgreSQL stores as `jsonb`: finite numbers, and texts without the null character. -/
def isJsonb : Value → Bool
  | .nonfinite => false
  | .str s => isStorable s
  | .arr xs => isJsonbElems xs
  | .obj fields => isJsonbFields fields
  | .null | .bool _ | .int _ | .float _ _ => true

def isJsonbElems : List Value → Bool
  | [] => true
  | x :: xs => x.isJsonb && isJsonbElems xs

def isJsonbFields : List (String × Value) → Bool
  | [] => true
  | (k, x) :: fs => isStorable k && x.isJsonb && isJsonbFields fs
end

end Value

/-! ## Printing -/

/-- Four lower-case hexadecimal digits. -/
def hex4 (n : ℕ) : List Char :=
  [Nat.digitChar (n / 4096 % 16), Nat.digitChar (n / 256 % 16), Nat.digitChar (n / 16 % 16),
    Nat.digitChar (n % 16)]

/-- A `\uXXXX` escape, or a surrogate pair of them outside the basic plane. -/
def unicodeEscape (n : ℕ) : List Char :=
  if n < 0x10000 then '\\' :: 'u' :: hex4 n
  else '\\' :: 'u' :: (hex4 (0xd800 + (n - 0x10000) / 0x400)
    ++ '\\' :: 'u' :: hex4 (0xdc00 + (n - 0x10000) % 0x400))

/-- One character of a string literal. With `ensureAscii` everything outside `' '..'~'` is
escaped, otherwise only the control characters. -/
def escapeChar (ensureAscii : Bool) (c : Char) : List Char :=
  if c = '"' then ['\\', '"']
  else if c = '\\' then ['\\', '\\']
  else if c = '\n' then ['\\', 'n']
  else if c = '\r' then ['\\', 'r']
  else if c = '\t' then ['\\', 't']
  else if c = '\x08' then ['\\', 'b']
  else if c = '\x0c' then ['\\', 'f']
  else if c.toNat < 0x20 ∨ (ensureAscii = true ∧ 0x7e < c.toNat) then unicodeEscape c.toNat
  else [c]

/-- A string literal. -/
def printString (ensureAscii : Bool) (s : String) : List Char :=
  '"' :: (s.toList.flatMap (escapeChar ensureAscii) ++ ['"'])

/-- An integer literal. -/
def printInt : Int → List Char
  | .ofNat n => Nat.toDigits 10 n
  | .negSucc n => '-' :: Nat.toDigits 10 (n + 1)

mutual
/-- The compact text of a value. -/
def print (ensureAscii : Bool) : Value → List Char
  | .null => ['n', 'u', 'l', 'l']
  | .bool true => ['t', 'r', 'u', 'e']
  | .bool false => ['f', 'a', 'l', 's', 'e']
  | .int n => printInt n
  | .float m e => printInt m ++ 'e' :: printInt e
  | .nonfinite => ['N', 'a', 'N']
  | .str s => printString ensureAscii s
  | .arr [] => ['[', ']']
  | .arr (x :: xs) => '[' :: (print ensureAscii x ++ (printElems ensureAscii xs ++ [']']))
  | .obj [] => ['{', '}']
  | .obj ((k, x) :: fs) =>
    '{' :: (printString ensureAscii k
      ++ ':' :: (print ensureAscii x ++ (printFields ensureAscii fs ++ ['}'])))

/-- The elements of an array after the first. -/
def printElems (ensureAscii : Bool) : List Value → List Char
  | [] => []
  | x :: xs => ',' :: (print ensureAscii x ++ printElems ensureAscii xs)

/-- The fields of an object after the first. -/
def printFields (ensureAscii : Bool) : List (String × Value) → List Char
  | [] => []
  | (k, x) :: fs =>
    ',' :: (printString ensureAscii k
      ++ ':' :: (print ensureAscii x ++ printFields ensureAscii fs))
end

/-- The compact text of a value. -/
def dumps (ensureAscii : Bool) (v : Value) : String := String.ofList (print ensureAscii v)

/-! ## Reading -/

def isSpace (c : Char) : Bool := c == ' ' || c == '\t' || c == '\n' || c == '\r'

def skipSpace (cs : List Char) : List Char := cs.dropWhile isSpace

/-- The value of a hexadecimal digit of either case. -/
def hexValue (c : Char) : Option ℕ :=
  if '0'.toNat ≤ c.toNat ∧ c.toNat ≤ '9'.toNat then some (c.toNat - '0'.toNat)
  else if 'a'.toNat ≤ c.toNat ∧ c.toNat ≤ 'f'.toNat then some (c.toNat - 'a'.toNat + 10)
  else if 'A'.toNat ≤ c.toNat ∧ c.toNat ≤ 'F'.toNat then some (c.toNat - 'A'.toNat + 10)
  else none

/-- Read four hexadecimal digits. -/
def readHex4 : List Char → Option (ℕ × List Char)
  | a :: b :: c :: d :: cs => do
    let a ← hexValue a
    let b ← hexValue b
    let c ← hexValue c
    let d ← hexValue d
    some (((a * 16 + b) * 16 + c) * 16 + d, cs)
  | _ => none

/-- Read what follows `\u`: a character of the basic plane, or a surrogate pair. -/
def readUnicode (cs : List Char) : Option (Char × List Char) := do
  let (n, cs) ← readHex4 cs
  if 0xd800 ≤ n ∧ n < 0xdc00 then
    match cs with
    | '\\' :: 'u' :: cs =>
      let (m, cs) ← readHex4 cs
      if 0xdc00 ≤ m ∧ m < 0xe000 then
        some (Char.ofNat (0x10000 + (n - 0xd800) * 0x400 + (m - 0xdc00)), cs)
      else none
    | _ => none
  else if 0xdc00 ≤ n ∧ n < 0xe000 then none
  else some (Char.ofNat n, cs)

/-- Read one character of a string body. -/
def readChar : List Char → Option (Char × List Char)
  | '\\' :: '"' :: cs => some ('"', cs)
  | '\\' :: '\\' :: cs => some ('\\', cs)
  | '\\' :: '/' :: cs => some ('/', cs)
  | '\\' :: 'n' :: cs => some ('\n', cs)
  | '\\' :: 'r' :: cs => some ('\r', cs)
  | '\\' :: 't' :: cs => some ('\t', cs)
  | '\\' :: 'b' :: cs => some ('\x08', cs)
  | '\\' :: 'f' :: cs => some ('\x0c', cs)
  | '\\' :: 'u' :: cs => readUnicode cs
  | '\\' :: _ => none
  | c :: cs => if c.toNat < 0x20 then none else some (c, cs)
  | [] => none

/-- Read a string body up to and including its closing quote. -/
def readChars : ℕ → List Char → Option (List Char × List Char)
  | 0, _ => none
  | _ + 1, '"' :: cs => some ([], cs)
  | fuel + 1, cs => do
    let (c, cs) ← readChar cs
    let (s, cs) ← readChars fuel cs
    some (c :: s, cs)

/-- Read a run of decimal digits, at least one. -/
def readDigits (cs : List Char) : Option (List Char × List Char) :=
  match cs.takeWhile Char.isDigit with
  | [] => none
  | ds => some (ds, cs.dropWhile Char.isDigit)

/-- Read the integer part of a number: `0`, or digits that do not start with `0`. -/
def readNat : List Char → Option (ℕ × List Char)
  | '0' :: cs => some (0, cs)
  | cs => do
    let (ds, cs) ← readDigits cs
    some (Nat.ofDigitChars 10 ds 0, cs)

/-- Read an optional fraction. -/
def readFraction : List Char → List Char × List Char
  | '.' :: cs =>
    match readDigits cs with
    | some (ds, rest) => (ds, rest)
    | none => ([], '.' :: cs)
  | cs => ([], cs)

/-- Read the digits of an exponent after its sign. -/
def readExponentDigits (negative : Bool) (cs : List Char) : Option (Int × List Char) := do
  let (ds, cs) ← readDigits cs
  let n : Int := Nat.ofDigitChars 10 ds 0
  some (if negative then -n else n, cs)

/-- Read an optional exponent. -/
def readExponent (cs : List Char) : Option (Int × List Char) :=
  match cs with
  | 'e' :: '-' :: cs | 'E' :: '-' :: cs => readExponentDigits true cs
  | 'e' :: '+' :: cs | 'E' :: '+' :: cs => readExponentDigits false cs
  | 'e' :: cs | 'E' :: cs => readExponentDigits false cs
  | _ => none

/-- The number with the given sign, integer part, fraction digits and exponent. -/
def number (negative : Bool) (n : ℕ) (fraction : List Char) (exponent : Option Int) : Value :=
  let sign : Int := if negative then -1 else 1
  match fraction, exponent with
  | [], none => .int (sign * n)
  | ds, e => .float (sign * Nat.ofDigitChars 10 ds n) (e.getD 0 - ds.length)

/-- Read a number after its sign. -/
def readUnsigned (negative : Bool) (cs : List Char) : Option (Value × List Char) := do
  let (n, cs) ← readNat cs
  let (ds, cs) := readFraction cs
  match readExponent cs with
  | some (e, cs) => some (number negative n ds (some e), cs)
  | none => some (number negative n ds none, cs)

/-- Read a number or one of the non-finite literals. -/
def readNumber : List Char → Option (Value × List Char)
  | 'N' :: 'a' :: 'N' :: cs => some (.nonfinite, cs)
  | 'I' :: 'n' :: 'f' :: 'i' :: 'n' :: 'i' :: 't' :: 'y' :: cs => some (.nonfinite, cs)
  | '-' :: 'I' :: 'n' :: 'f' :: 'i' :: 'n' :: 'i' :: 't' :: 'y' :: cs => some (.nonfinite, cs)
  | '-' :: cs => readUnsigned true cs
  | cs => readUnsigned false cs

/-- Put a field into an object: a key that is there keeps its place and takes the new value. -/
def setField (k : String) (v : Value) : List (String × Value) → List (String × Value)
  | [] => [(k, v)]
  | (k', v') :: fs => if k' = k then (k, v) :: fs else (k', v') :: setField k v fs

/-- The object a list of key–value pairs denotes. -/
def objectOf (fields : List (String × Value)) : List (String × Value) :=
  fields.foldl (fun acc f ↦ setField f.1 f.2 acc) []

mutual
/-- Read one value. -/
def readValue : ℕ → List Char → Option (Value × List Char)
  | 0, _ => none
  | fuel + 1, cs =>
    match cs with
    | '"' :: cs => do
      let (s, cs) ← readChars fuel cs
      some (.str (String.ofList s), cs)
    | '[' :: cs =>
      match skipSpace cs with
      | ']' :: cs => some (.arr [], cs)
      | cs => do
        let (x, cs) ← readValue fuel cs
        let (xs, cs) ← readElems fuel (skipSpace cs)
        some (.arr (x :: xs), cs)
    | '{' :: cs =>
      match skipSpace cs with
      | '}' :: cs => some (.obj [], cs)
      | cs => do
        let (f, cs) ← readField fuel cs
        let (fs, cs) ← readFields fuel (skipSpace cs)
        some (.obj (objectOf (f :: fs)), cs)
    | 'n' :: 'u' :: 'l' :: 'l' :: cs => some (.null, cs)
    | 't' :: 'r' :: 'u' :: 'e' :: cs => some (.bool true, cs)
    | 'f' :: 'a' :: 'l' :: 's' :: 'e' :: cs => some (.bool false, cs)
    | cs => readNumber cs

/-- Read the elements of an array after the first, and its closing bracket. -/
def readElems : ℕ → List Char → Option (List Value × List Char)
  | 0, _ => none
  | fuel + 1, cs =>
    match cs with
    | ']' :: cs => some ([], cs)
    | ',' :: cs => do
      let (x, cs) ← readValue fuel (skipSpace cs)
      let (xs, cs) ← readElems fuel (skipSpace cs)
      some (x :: xs, cs)
    | _ => none

/-- Read one field of an object. -/
def readField : ℕ → List Char → Option ((String × Value) × List Char)
  | 0, _ => none
  | fuel + 1, cs =>
    match cs with
    | '"' :: cs => do
      let (k, cs) ← readChars fuel cs
      match skipSpace cs with
      | ':' :: cs =>
        let (x, cs) ← readValue fuel (skipSpace cs)
        some ((String.ofList k, x), cs)
      | _ => none
    | _ => none

/-- Read the fields of an object after the first, and its closing brace. -/
def readFields : ℕ → List Char → Option (List (String × Value) × List Char)
  | 0, _ => none
  | fuel + 1, cs =>
    match cs with
    | '}' :: cs => some ([], cs)
    | ',' :: cs => do
      let (f, cs) ← readField fuel (skipSpace cs)
      let (fs, cs) ← readFields fuel (skipSpace cs)
      some (f :: fs, cs)
    | _ => none
end

/-- Read a whole document. -/
def loads (s : String) : Option Value :=
  match readValue (s.length + 1) (skipSpace s.toList) with
  | some (v, cs) => if skipSpace cs = [] then some v else none
  | none => none

/-! ## Round trip -/

theorem hexValue_digitChar {n : ℕ} (h : n < 16) : hexValue (Nat.digitChar n) = some n := by
  have key : ∀ i : Fin 16, hexValue (Nat.digitChar i) = some (i : ℕ) := by decide
  exact key ⟨n, h⟩

theorem readHex4_hex4 {n : ℕ} (h : n < 65536) (cs : List Char) :
    readHex4 (hex4 n ++ cs) = some (n, cs) := by
  have hmod : ∀ m, m % 16 < 16 := fun m ↦ Nat.mod_lt _ (by decide)
  have hsum : ((n / 4096 % 16 * 16 + n / 256 % 16) * 16 + n / 16 % 16) * 16 + n % 16 = n := by
    omega
  simp only [hex4, List.cons_append, List.nil_append, readHex4, hexValue_digitChar (hmod _),
    Option.bind_eq_bind, Option.bind_some, hsum]

theorem readUnicode_hex4 {n : ℕ} (h : n < 0xd800 ∨ 0xe000 ≤ n ∧ n < 0x10000) (cs : List Char) :
    readUnicode (hex4 n ++ cs) = some (Char.ofNat n, cs) := by
  simp only [readUnicode, readHex4_hex4 (show n < 65536 by omega), Option.bind_eq_bind,
    Option.bind_some]
  rw [if_neg (by omega), if_neg (by omega)]

theorem readUnicode_pair {hi lo : ℕ} (hhi : 0xd800 ≤ hi ∧ hi < 0xdc00)
    (hlo : 0xdc00 ≤ lo ∧ lo < 0xe000) (cs : List Char) :
    readUnicode (hex4 hi ++ '\\' :: 'u' :: (hex4 lo ++ cs))
      = some (Char.ofNat (0x10000 + (hi - 0xd800) * 0x400 + (lo - 0xdc00)), cs) := by
  simp only [readUnicode, readHex4_hex4 (show hi < 65536 by omega),
    readHex4_hex4 (show lo < 65536 by omega), Option.bind_eq_bind, Option.bind_some, if_pos hhi,
    if_pos hlo]

/-- A code point outside the basic plane is put together again from its surrogates. -/
theorem surrogates {n : ℕ} (h : 0x10000 ≤ n) (h' : n < 0x110000) :
    ∃ hi lo, 0xd800 + (n - 0x10000) / 0x400 = hi ∧ 0xdc00 + (n - 0x10000) % 0x400 = lo
      ∧ (0xd800 ≤ hi ∧ hi < 0xdc00) ∧ (0xdc00 ≤ lo ∧ lo < 0xe000)
      ∧ 0x10000 + (hi - 0xd800) * 0x400 + (lo - 0xdc00) = n := by
  refine ⟨_, _, rfl, rfl, ?_, ?_, ?_⟩ <;> omega

theorem readUnicode_escape (c : Char) (cs : List Char) :
    ∃ ds, unicodeEscape c.toNat = '\\' :: 'u' :: ds ∧ readUnicode (ds ++ cs) = some (c, cs) := by
  have hvalid : c.toNat < 0xd800 ∨ 0xdfff < c.toNat ∧ c.toNat < 0x110000 := c.valid
  unfold unicodeEscape
  split_ifs with hbmp
  · exact ⟨_, rfl, by rw [readUnicode_hex4 (by omega), Char.ofNat_toNat]⟩
  · obtain ⟨hi, lo, rfl, rfl, hhi, hlo, hback⟩ := surrogates (Nat.le_of_not_lt hbmp) (by omega)
    refine ⟨_, rfl, ?_⟩
    rw [List.append_assoc, List.cons_append, List.cons_append, readUnicode_pair hhi hlo, hback,
      Char.ofNat_toNat]

theorem readChar_escapeChar (a : Bool) (c : Char) (cs : List Char) :
    readChar (escapeChar a c ++ cs) = some (c, cs) := by
  obtain ⟨ds, hds, hread⟩ := readUnicode_escape c cs
  unfold escapeChar
  split_ifs with h₁ h₂ h₃ h₄ h₅ h₆ h₇ h₈
  iterate 7 subst_vars; rfl
  · rw [hds]
    exact hread
  · have hge : ¬ c.toNat < 0x20 := fun h ↦ h₈ (.inl h)
    unfold readChar
    split <;> simp_all

/-- An escaped character does not start with a quote. -/
theorem escapeChar_cons (a : Bool) (c : Char) :
    ∃ d ds, escapeChar a c = d :: ds ∧ d ≠ '"' := by
  obtain ⟨ds, hds, -⟩ := readUnicode_escape c []
  unfold escapeChar
  split_ifs with h₁ h₂ h₃ h₄ h₅ h₆ h₇ h₈
  iterate 7 exact ⟨_, _, rfl, by decide⟩
  · exact ⟨_, _, hds, by decide⟩
  · exact ⟨c, [], rfl, h₁⟩

theorem readChars_escape (a : Bool) (s cs : List Char) (fuel : ℕ) (h : s.length < fuel) :
    readChars fuel (s.flatMap (escapeChar a) ++ '"' :: cs) = some (s, cs) := by
  induction s generalizing fuel with
  | nil =>
    obtain ⟨fuel, rfl⟩ : ∃ n, fuel = n + 1 := ⟨fuel - 1, by simp at h; omega⟩
    rfl
  | cons c s ih =>
    obtain ⟨fuel, rfl⟩ : ∃ n, fuel = n + 1 := ⟨fuel - 1, by simp at h; omega⟩
    obtain ⟨d, ds, hd, hquote⟩ := escapeChar_cons a c
    have hread := readChar_escapeChar a c (s.flatMap (escapeChar a) ++ '"' :: cs)
    rw [List.flatMap_cons, List.append_assoc]
    rw [hd, List.cons_append] at hread ⊢
    unfold readChars
    split
    · simp_all
    · simp_all
    · rename_i n hn hxs
      obtain rfl : fuel = n := by omega
      rw [hread]
      simp [ih _ (by simpa using h)]

theorem length_escapeChar (a : Bool) (c : Char) : 1 ≤ (escapeChar a c).length := by
  obtain ⟨d, ds, hd, -⟩ := escapeChar_cons a c
  simp [hd]

theorem length_flatMap_escapeChar (a : Bool) (s : List Char) :
    s.length ≤ (s.flatMap (escapeChar a)).length := by
  induction s with
  | nil => simp
  | cons c s ih =>
    have := length_escapeChar a c
    simp only [List.flatMap_cons, List.length_append, List.length_cons]
    omega

/-- What may follow a number: not something that continues it. -/
def Delimited : List Char → Prop
  | [] => True
  | c :: _ => c.isDigit = false ∧ c ≠ '.' ∧ c ≠ 'e' ∧ c ≠ 'E'

/-- Only zero is written with a leading zero. -/
theorem toDigits_zero_cons {n : ℕ} {ds : List Char} (h : Nat.toDigits 10 n = '0' :: ds) :
    n = 0 ∧ ds = [] := by
  induction n using Nat.strongRecOn generalizing ds with
  | ind n ih =>
    rcases Nat.lt_or_ge n 10 with hn | hn
    · rw [Nat.toDigits_of_lt_base hn] at h
      simpa using h
    · rw [Nat.toDigits_of_base_le (by decide) hn] at h
      obtain ⟨c, cs, hc⟩ := List.exists_cons_of_ne_nil (Nat.toDigits_ne_nil (n := n / 10) (b := 10))
      rw [hc, List.cons_append, List.cons.injEq] at h
      obtain ⟨rfl, -⟩ := h
      have := (ih (n / 10) (by omega) hc).1
      omega

theorem readDigits_toDigits (n : ℕ) {cs : List Char} (hcs : Delimited cs) :
    readDigits (Nat.toDigits 10 n ++ cs) = some (Nat.toDigits 10 n, cs) := by
  have hdigit : ∀ c ∈ Nat.toDigits 10 n, c.isDigit = true := fun c hc ↦
    Nat.isDigit_of_mem_toDigits (by decide) (by decide) hc
  have hstop : cs.takeWhile Char.isDigit = [] ∧ cs.dropWhile Char.isDigit = cs := by
    cases cs with
    | nil => exact ⟨rfl, rfl⟩
    | cons c cs => exact ⟨by simp [hcs.1], by simp [hcs.1]⟩
  unfold readDigits
  rw [List.takeWhile_append_of_pos hdigit, List.dropWhile_append_of_pos hdigit, hstop.1, hstop.2,
    List.append_nil]
  split
  · exact absurd ‹_› Nat.toDigits_ne_nil
  · rfl

theorem readNat_toDigits (n : ℕ) {cs : List Char} (hcs : Delimited cs) :
    readNat (Nat.toDigits 10 n ++ cs) = some (n, cs) := by
  obtain ⟨c, ds, hds⟩ := List.exists_cons_of_ne_nil (Nat.toDigits_ne_nil (n := n) (b := 10))
  have hread := readDigits_toDigits n hcs
  by_cases hc : c = '0'
  · subst hc
    obtain ⟨rfl, rfl⟩ := toDigits_zero_cons hds
    rfl
  · rw [hds, List.cons_append] at hread ⊢
    unfold readNat
    split
    · simp_all
    · rw [hread, ← hds]
      simp [Nat.ofDigitChars_ten_toDigits]

theorem readUnsigned_toDigits (negative : Bool) (n : ℕ) {cs : List Char} (hcs : Delimited cs) :
    readUnsigned negative (Nat.toDigits 10 n ++ cs)
      = some (.int ((if negative then -1 else 1) * n), cs) := by
  have hfraction : readFraction cs = ([], cs) := by
    cases cs with
    | nil => rfl
    | cons c cs =>
      unfold readFraction
      split
      · exact absurd (List.cons.inj ‹_›).1 hcs.2.1
      · rfl
  have hexponent : readExponent cs = none := by
    cases cs with
    | nil => rfl
    | cons c cs =>
      obtain ⟨-, -, he, hE⟩ := hcs
      unfold readExponent
      split <;> simp_all
  simp [readUnsigned, readNat_toDigits n hcs, hfraction, hexponent, number]

theorem readNumber_printInt (n : Int) {cs : List Char} (hcs : Delimited cs) :
    readNumber (printInt n ++ cs) = some (.int n, cs) := by
  cases n with
  | ofNat n =>
    obtain ⟨c, ds, hds⟩ := List.exists_cons_of_ne_nil (Nat.toDigits_ne_nil (n := n) (b := 10))
    have hdigit : c.isDigit = true :=
      Nat.isDigit_of_mem_toDigits (b := 10) (by decide) (by decide) (hds ▸ List.mem_cons_self)
    have hread := readUnsigned_toDigits false n hcs
    simp only [printInt]
    rw [hds, List.cons_append] at hread ⊢
    unfold readNumber
    split
    case h_5 => simpa using hread
    all_goals
      obtain ⟨rfl, -⟩ := List.cons.inj ‹_›
      exact absurd hdigit (by decide)
  | negSucc n =>
    have hread := readUnsigned_toDigits true (n + 1) hcs
    obtain ⟨c, ds, hds⟩ := List.exists_cons_of_ne_nil (Nat.toDigits_ne_nil (n := n + 1) (b := 10))
    have hdigit : c.isDigit = true :=
      Nat.isDigit_of_mem_toDigits (b := 10) (by decide) (by decide) (hds ▸ List.mem_cons_self)
    simp only [printInt, List.cons_append]
    rw [hds, List.cons_append] at hread ⊢
    unfold readNumber
    split
    case h_3 =>
      simp only [List.cons.injEq] at *
      obtain ⟨-, rfl, -⟩ := ‹_›
      exact absurd hdigit (by decide)
    case h_4 =>
      obtain ⟨-, rfl⟩ := List.cons.inj ‹_›
      rw [hread]
      simp [Int.negSucc_eq]
    all_goals simp_all

theorem printInt_cons (n : Int) :
    ∃ c cs, printInt n = c :: cs ∧ (c.isDigit = true ∨ c = '-') := by
  cases n with
  | ofNat n =>
    obtain ⟨c, ds, hds⟩ := List.exists_cons_of_ne_nil (Nat.toDigits_ne_nil (n := n) (b := 10))
    exact ⟨c, ds, hds, .inl <| Nat.isDigit_of_mem_toDigits (b := 10) (by decide) (by decide)
      (hds ▸ List.mem_cons_self)⟩
  | negSucc n => exact ⟨_, _, rfl, .inr rfl⟩

/-- The text of a value starts with something that is neither space nor a closing bracket. -/
theorem print_cons (a : Bool) {v : Value} (hv : v.Printable) :
    ∃ c cs, print a v = c :: cs ∧ isSpace c = false ∧ c ≠ ']' ∧ c ≠ '}' := by
  cases v with
  | null => exact ⟨_, _, by rw [print], by decide, by decide, by decide⟩
  | bool b => cases b <;> exact ⟨_, _, by rw [print], by decide, by decide, by decide⟩
  | int n =>
    obtain ⟨c, cs, hc, h⟩ := printInt_cons n
    refine ⟨c, cs, by rw [print, hc], ?_⟩
    rcases h with h | rfl
    · refine ⟨?_, ?_, ?_⟩
      · by_contra hspace
        simp only [isSpace, Bool.not_eq_false, Bool.or_eq_true, beq_iff_eq] at hspace
        rcases hspace with ((rfl | rfl) | rfl) | rfl <;> exact absurd h (by decide)
      all_goals rintro rfl; exact absurd h (by decide)
    · decide
  | float m e => simp [Value.Printable] at hv
  | nonfinite => simp [Value.Printable] at hv
  | str s => exact ⟨_, _, by rw [print, printString], by decide, by decide, by decide⟩
  | arr xs => cases xs <;> exact ⟨_, _, by rw [print], by decide, by decide, by decide⟩
  | obj fs => rcases fs with _ | ⟨⟨k, x⟩, fs⟩ <;>
      exact ⟨_, _, by rw [print], by decide, by decide, by decide⟩

theorem skipSpace_print (a : Bool) {v : Value} (hv : v.Printable) (cs : List Char) :
    skipSpace (print a v ++ cs) = print a v ++ cs := by
  obtain ⟨c, ds, hc, hspace, -⟩ := print_cons a hv
  simp [hc, skipSpace, hspace]

theorem readValue_printInt (n : Int) {cs : List Char} (hcs : Delimited cs) (fuel : ℕ) :
    readValue (fuel + 1) (printInt n ++ cs) = some (.int n, cs) := by
  have hread := readNumber_printInt n hcs
  obtain ⟨c, ds, hc, h⟩ := printInt_cons n
  rw [hc, List.cons_append] at hread ⊢
  unfold readValue
  split
  case h_7 => exact hread
  all_goals
    obtain ⟨rfl, -⟩ := List.cons.inj ‹_›
    exact absurd h (by decide)

theorem readString (a : Bool) (s : String) {fuel : ℕ} (h : (printString a s).length ≤ fuel)
    (cs : List Char) :
    ∃ rest, printString a s ++ cs = '"' :: rest ∧ readChars fuel rest = some (s.toList, cs) := by
  refine ⟨s.toList.flatMap (escapeChar a) ++ '"' :: cs, by simp [printString],
    readChars_escape a _ _ _ ?_⟩
  have := length_flatMap_escapeChar a s.toList
  simp only [printString, List.length_cons, List.length_append, List.length_nil] at h
  omega

theorem setField_of_notMem {k : String} {v : Value} {fs : List (String × Value)}
    (h : k ∉ fs.map Prod.fst) : setField k v fs = fs ++ [(k, v)] := by
  induction fs with
  | nil => rfl
  | cons f fs ih =>
    obtain ⟨k', v'⟩ := f
    simp only [List.map_cons, List.mem_cons, not_or] at h
    rw [setField, if_neg (Ne.symm h.1), ih h.2, List.cons_append]

/-- Fields with distinct keys are the object they denote. -/
theorem objectOf_of_nodup {fs : List (String × Value)} (h : (fs.map Prod.fst).Nodup) :
    objectOf fs = fs := by
  have key : ∀ acc, ((acc ++ fs).map Prod.fst).Nodup →
      fs.foldl (fun acc f ↦ setField f.1 f.2 acc) acc = acc ++ fs := by
    clear h
    induction fs with
    | nil => simp
    | cons f fs ih =>
      intro acc h
      have hnotin : f.1 ∉ acc.map Prod.fst := by
        rw [List.map_append, List.nodup_append'] at h
        exact fun hmem ↦ h.2.2 hmem (by simp)
      rw [List.foldl_cons, setField_of_notMem hnotin, ih _ (by simpa using h)]
      simp
  exact key [] (by simpa using h)

theorem delimited_elems (a : Bool) (xs : List Value) (cs : List Char) :
    Delimited (printElems a xs ++ ']' :: cs) := by
  cases xs <;> simp [printElems, Delimited]

theorem delimited_fields (a : Bool) (fs : List (String × Value)) (cs : List Char) :
    Delimited (printFields a fs ++ '}' :: cs) := by
  rcases fs with _ | ⟨⟨k, x⟩, fs⟩ <;> simp [printFields, Delimited]

theorem skipSpace_elems (a : Bool) (xs : List Value) (cs : List Char) :
    skipSpace (printElems a xs ++ ']' :: cs) = printElems a xs ++ ']' :: cs := by
  cases xs <;> simp [printElems, skipSpace, isSpace]

theorem skipSpace_fields (a : Bool) (fs : List (String × Value)) (cs : List Char) :
    skipSpace (printFields a fs ++ '}' :: cs) = printFields a fs ++ '}' :: cs := by
  rcases fs with _ | ⟨⟨k, x⟩, fs⟩ <;> simp [printFields, skipSpace, isSpace]

/-- A field is read back once its value is. -/
theorem readField_print (a : Bool) (k : String) {x : Value} (hx : x.Printable) {cs : List Char}
    (fuel : ℕ) (hk : (printString a k).length ≤ fuel)
    (h : readValue fuel (print a x ++ cs) = some (x, cs)) :
    readField (fuel + 1) (printString a k ++ ':' :: (print a x ++ cs)) = some ((k, x), cs) := by
  obtain ⟨rest, hrest, hread⟩ := readString a k hk (':' :: (print a x ++ cs))
  have hcolon : skipSpace (':' :: (print a x ++ cs)) = ':' :: (print a x ++ cs) := rfl
  rw [hrest]
  simp [readField, hread, hcolon, skipSpace_print a hx, h]

mutual
theorem readValue_print (a : Bool) (v : Value) (hv : v.Printable) {cs : List Char}
    (hcs : Delimited cs) (fuel : ℕ) (h : (print a v).length ≤ fuel) :
    readValue fuel (print a v ++ cs) = some (v, cs) := by
  obtain ⟨fuel, rfl⟩ : ∃ n, fuel = n + 1 := by
    obtain ⟨c, ds, hc, -⟩ := print_cons a hv
    exact ⟨fuel - 1, by simp [hc] at h; omega⟩
  match v with
  | .null => rfl
  | .bool true => rfl
  | .bool false => rfl
  | .int n => exact readValue_printInt n hcs fuel
  | .float m e => simp [Value.Printable] at hv
  | .nonfinite => simp [Value.Printable] at hv
  | .str s =>
    rw [print] at h ⊢
    have hlen := length_flatMap_escapeChar a s.toList
    have hread := readChars_escape a s.toList cs fuel (by
      simp only [printString, List.length_cons, List.length_append, List.length_nil] at h
      omega)
    simp [printString, readValue, hread]
  | .arr [] => simp [print, readValue, skipSpace, isSpace]
  | .arr (x :: xs) =>
    obtain ⟨hx, hxs⟩ : x.Printable ∧ Value.PrintableElems xs := by
      simpa [Value.Printable, Value.PrintableElems] using hv
    simp only [print, List.length_cons, List.length_append, List.length_nil] at h
    have hhead := readValue_print a x hx (delimited_elems a xs cs) fuel (by omega)
    have htail := readElems_print a xs hxs cs fuel (by omega)
    have hskip := skipSpace_print a hx (printElems a xs ++ ']' :: cs)
    obtain ⟨c, ds, hc, -, hbracket, -⟩ := print_cons a hx
    simp only [print, List.cons_append, List.append_assoc, List.nil_append, readValue, hskip]
    split
    · simp_all
    · simp [hhead, skipSpace_elems, htail]
  | .obj [] => simp [print, readValue, skipSpace, isSpace]
  | .obj ((k, x) :: fs) =>
    obtain ⟨⟨hx, hfs⟩, hnodup⟩ :
        (x.Printable ∧ Value.PrintableFields fs) ∧ (((k, x) :: fs).map Prod.fst).Nodup := by
      simpa only [Value.Printable, Value.PrintableFields] using hv
    simp only [print, List.length_cons, List.length_append, List.length_nil] at h
    obtain ⟨fuel, rfl⟩ : ∃ n, fuel = n + 1 := ⟨fuel - 1, by omega⟩
    have hhead := readField_print a k hx fuel (by omega)
      (readValue_print a x hx (delimited_fields a fs cs) fuel (by omega))
    have htail := readFields_print a fs hfs cs (fuel + 1) (by omega)
    have hskip : ∀ ds, skipSpace (printString a k ++ ds) = printString a k ++ ds := fun _ ↦ rfl
    simp only [print, List.cons_append, List.append_assoc, List.nil_append, readValue, hskip]
    split
    · simp_all [printString]
    · simp [hhead, skipSpace_fields, htail, objectOf_of_nodup hnodup]

theorem readElems_print (a : Bool) (xs : List Value) (hxs : Value.PrintableElems xs)
    (cs : List Char) (fuel : ℕ) (h : (printElems a xs).length + 1 ≤ fuel) :
    readElems fuel (printElems a xs ++ ']' :: cs) = some (xs, cs) := by
  obtain ⟨fuel, rfl⟩ : ∃ n, fuel = n + 1 := ⟨fuel - 1, by omega⟩
  match xs with
  | [] => rfl
  | x :: xs =>
    obtain ⟨hx, hxs⟩ : x.Printable ∧ Value.PrintableElems xs := by
      simpa [Value.PrintableElems] using hxs
    simp only [printElems, List.length_cons, List.length_append] at h
    have hhead := readValue_print a x hx (delimited_elems a xs cs) fuel (by omega)
    have htail := readElems_print a xs hxs cs fuel (by omega)
    simp [printElems, readElems, skipSpace_print a hx, hhead, skipSpace_elems, htail]

theorem readFields_print (a : Bool) (fs : List (String × Value))
    (hfs : Value.PrintableFields fs) (cs : List Char) (fuel : ℕ)
    (h : (printFields a fs).length + 1 ≤ fuel) :
    readFields fuel (printFields a fs ++ '}' :: cs) = some (fs, cs) := by
  obtain ⟨fuel, rfl⟩ : ∃ n, fuel = n + 1 := ⟨fuel - 1, by omega⟩
  match fs with
  | [] => rfl
  | (k, x) :: fs =>
    obtain ⟨hx, hfs⟩ : x.Printable ∧ Value.PrintableFields fs := by
      simpa [Value.PrintableFields] using hfs
    simp only [printFields, List.length_cons, List.length_append] at h
    obtain ⟨fuel, rfl⟩ : ∃ n, fuel = n + 1 := ⟨fuel - 1, by omega⟩
    have hhead := readField_print a k hx fuel (by omega)
      (readValue_print a x hx (delimited_fields a fs cs) fuel (by omega))
    have htail := readFields_print a fs hfs cs (fuel + 1) (by omega)
    have hskip : ∀ ds, skipSpace (printString a k ++ ds) = printString a k ++ ds := fun _ ↦ rfl
    simp only [printFields, List.cons_append, List.append_assoc]
    rw [readFields]
    simp [hskip, hhead, skipSpace_fields, htail]
end

/-- **Round trip**: a printed value is read back, also with space around it. -/
theorem loads_dumps (a : Bool) {v : Value} (hv : v.Printable) {space : String}
    (hspace : ∀ c ∈ space.toList, isSpace c = true) : loads (dumps a v ++ space) = some v := by
  have hend : Delimited space.toList ∧ skipSpace space.toList = [] := by
    cases hs : space.toList with
    | nil => exact ⟨trivial, rfl⟩
    | cons c cs =>
      have hc : isSpace c = true := hspace c (by simp [hs])
      refine ⟨?_, by rw [← hs]; exact List.dropWhile_eq_nil_iff.mpr hspace⟩
      simp only [isSpace, Bool.or_eq_true, beq_iff_eq] at hc
      rcases hc with ((rfl | rfl) | rfl) | rfl <;> simp [Delimited]
  have htext : (dumps a v ++ space).toList = print a v ++ space.toList := by simp [dumps]
  have hlen : (print a v).length ≤ (dumps a v ++ space).length + 1 := by
    rw [← String.length_toList, htext, List.length_append]
    omega
  rw [loads, htext, skipSpace_print a hv, readValue_print a v hv hend.1 _ hlen]
  simp [hend.2]

/-! ## Control characters -/

/-- Not a control character. -/
def Graphic (c : Char) : Prop := 0x20 ≤ c.toNat

instance (c : Char) : Decidable (Graphic c) := inferInstanceAs (Decidable (0x20 ≤ c.toNat))

theorem graphic_digitChar (n : ℕ) : Graphic (Nat.digitChar (n % 16)) := by
  have key : ∀ d : Fin 16, Graphic (Nat.digitChar d.val) := by decide
  exact key ⟨n % 16, Nat.mod_lt n (by decide)⟩

theorem graphic_hex4 (n : ℕ) : ∀ c ∈ hex4 n, Graphic c := by
  simp only [hex4, List.forall_mem_cons, List.not_mem_nil, false_implies, implies_true, and_true]
  exact ⟨graphic_digitChar _, graphic_digitChar _, graphic_digitChar _, graphic_digitChar _⟩

theorem graphic_unicodeEscape (n : ℕ) : ∀ c ∈ unicodeEscape n, Graphic c := by
  have hstart : Graphic '\\' ∧ Graphic 'u' := by decide
  unfold unicodeEscape
  split
  · simp only [List.forall_mem_cons]
    exact ⟨hstart.1, hstart.2, graphic_hex4 _⟩
  · simp only [List.forall_mem_cons, List.forall_mem_append]
    exact ⟨hstart.1, hstart.2, graphic_hex4 _, hstart.1, hstart.2, graphic_hex4 _⟩

theorem graphic_escapeChar (a : Bool) (c : Char) : ∀ d ∈ escapeChar a c, Graphic d := by
  unfold escapeChar
  split_ifs with _ _ _ _ _ _ _ hescape
  iterate 7 · exact List.all_iff_forall_prop.mp (by decide)
  · exact graphic_unicodeEscape _
  · have hc : ¬c.toNat < 0x20 := fun h ↦ hescape (.inl h)
    simpa [Graphic] using hc

theorem graphic_printString (a : Bool) (s : String) : ∀ c ∈ printString a s, Graphic c := by
  have hquote : Graphic '"' := by decide
  simp only [printString, List.forall_mem_cons, List.forall_mem_append, List.not_mem_nil,
    false_implies, implies_true, and_true]
  refine ⟨hquote, fun c hc ↦ ?_, hquote⟩
  obtain ⟨d, -, hd⟩ := List.mem_flatMap.mp hc
  exact graphic_escapeChar a d c hd

theorem graphic_toDigits (n : ℕ) : ∀ c ∈ Nat.toDigits 10 n, Graphic c := by
  intro c hc
  have hdigit := Nat.isDigit_of_mem_toDigits (b := 10) (by decide) (by decide) hc
  simp only [Char.isDigit, Bool.and_eq_true, decide_eq_true_eq] at hdigit
  have hle : '0'.toNat ≤ c.toNat := hdigit.1
  exact le_trans (by decide) hle

theorem graphic_printInt (n : Int) : ∀ c ∈ printInt n, Graphic c := by
  cases n with
  | ofNat n => exact graphic_toDigits n
  | negSucc n => exact List.forall_mem_cons.mpr ⟨by decide, graphic_toDigits _⟩

mutual
/-- A printed value has no control character. -/
theorem graphic_print (a : Bool) (v : Value) : ∀ c ∈ print a v, Graphic c := by
  match v with
  | .null | .bool true | .bool false | .nonfinite | .arr [] | .obj [] =>
    simp only [print]
    exact List.all_iff_forall_prop.mp (by decide)
  | .int n => simpa only [print] using graphic_printInt n
  | .float m e =>
    simp only [print, List.forall_mem_append, List.forall_mem_cons]
    exact ⟨graphic_printInt m, by decide, graphic_printInt e⟩
  | .str s => simpa only [print] using graphic_printString a s
  | .arr (x :: xs) =>
    simp only [print, List.forall_mem_append, List.forall_mem_cons]
    exact ⟨by decide, graphic_print a x, graphic_printElems a xs, by decide, by simp⟩
  | .obj ((k, x) :: fs) =>
    simp only [print, List.forall_mem_append, List.forall_mem_cons]
    exact ⟨by decide, graphic_printString a k, by decide, graphic_print a x,
      graphic_printFields a fs, by decide, by simp⟩

theorem graphic_printElems (a : Bool) (xs : List Value) : ∀ c ∈ printElems a xs, Graphic c := by
  match xs with
  | [] => simp [printElems]
  | x :: xs =>
    simp only [printElems, List.forall_mem_append, List.forall_mem_cons]
    exact ⟨by decide, graphic_print a x, graphic_printElems a xs⟩

theorem graphic_printFields (a : Bool) (fs : List (String × Value)) :
    ∀ c ∈ printFields a fs, Graphic c := by
  match fs with
  | [] => simp [printFields]
  | (k, x) :: fs =>
    simp only [printFields, List.forall_mem_append, List.forall_mem_cons]
    exact ⟨by decide, graphic_printString a k, by decide, graphic_print a x,
      graphic_printFields a fs⟩
end
end Json
