import Mathlib

/-!
# UTF-8

Encoding, and decoding that goes on after an error: the longest beginning of a character that its
continuation does not fit, and each byte that cannot begin one, count as one error. What an error
leaves in the text is a parameter (`bad`), so that errors can be replaced or ignored.

Bytes may carry more than their value, which is read by `byte`; a decoded character is made from
the character and the first of its bytes.

## Synchronisation

A byte that is not a continuation begins a character whatever comes before it, and an encoded
text is decoded as such wherever it stands (`decode_append_encode`).
-/

namespace Utf8

/-- The bytes of a text. -/
def encode (cs : List Char) : List UInt8 := cs.flatMap String.utf8EncodeChar

/-- What is missing of a character that has begun. -/
structure Rest where
  /-- How many bytes are missing after the next one. -/
  more : ℕ
  low : ℕ
  high : ℕ
  /-- What the bytes so far contribute to the character. -/
  bits : ℕ
  low_le : 0x80 ≤ low
  le_high : high ≤ 0xBF

/-- A character of which some bytes are missing, and its first byte. -/
structure Pending (β : Type) extends Rest where
  first : β

/-- A byte between two characters. -/
inductive Lead where
  | single
  | invalid
  | begins (rest : Rest)

/-- What a byte is between two characters, by its value. -/
def lead (n : ℕ) : Lead :=
  if n < 0x80 then .single
  else if n < 0xC2 then .invalid
  else if n < 0xE0 then .begins ⟨0, 0x80, 0xBF, n - 0xC0, by decide, by decide⟩
  else if n = 0xE0 then .begins ⟨1, 0xA0, 0xBF, 0, by decide, by decide⟩
  else if n = 0xED then .begins ⟨1, 0x80, 0x9F, 0xD, by decide, by decide⟩
  else if n < 0xF0 then .begins ⟨1, 0x80, 0xBF, n - 0xE0, by decide, by decide⟩
  else if n = 0xF0 then .begins ⟨2, 0x90, 0xBF, 0, by decide, by decide⟩
  else if n < 0xF4 then .begins ⟨2, 0x80, 0xBF, n - 0xF0, by decide, by decide⟩
  else if n = 0xF4 then .begins ⟨2, 0x80, 0x8F, 4, by decide, by decide⟩
  else .invalid

section Decode

variable {α β : Type} (byte : β → UInt8) (char : Char → β → α) (bad : β → List α)

/-- The outcome of a byte between two characters. -/
def start (b : β) : List α × Option (Pending β) :=
  match lead (byte b).toNat with
  | .single => ([char (Char.ofNat (byte b).toNat) b], none)
  | .invalid => (bad b, none)
  | .begins rest => ([], some { rest with first := b })

/-- The next byte of a character, or one that ends it early. -/
def step : Option (Pending β) → β → List α × Option (Pending β)
  | none, b => start byte char bad b
  | some p, b =>
    let n := (byte b).toNat
    if p.low ≤ n ∧ n ≤ p.high then
      let bits := p.bits * 64 + (n - 0x80)
      match p.more with
      | 0 => ([char (Char.ofNat bits) p.first], none)
      | more + 1 =>
        ([], some ⟨⟨more, 0x80, 0xBF, bits, Nat.le_refl _, Nat.le_refl _⟩, p.first⟩)
    else (bad p.first ++ (start byte char bad b).1, (start byte char bad b).2)

def decodeFrom : Option (Pending β) → List β → List α
  | none, [] => []
  | some p, [] => bad p.first
  | q, b :: t => (step byte char bad q b).1 ++ decodeFrom (step byte char bad q b).2 t

/-- The text some bytes stand for. -/
def decode (t : List β) : List α := decodeFrom byte char bad none t

variable {α' β' : Type} {byte char bad} {a : α} {b : β} {t x y m : List β} {q : Option (Pending β)}

/-! ## What a decoded text is made of -/

theorem start_cases (byte : β → UInt8) (char : Char → β → α) (bad : β → List α) (b : β) :
    (∃ c, start byte char bad b = ([char c b], none)) ∨ start byte char bad b = (bad b, none)
      ∨ ∃ p : Pending β, p.first = b ∧ start byte char bad b = ([], some p) := by
  rw [start]
  split
  · exact .inl ⟨_, rfl⟩
  · exact .inr (.inl rfl)
  · exact .inr (.inr ⟨_, rfl, rfl⟩)

/-- A symbol of the outcome that was made from one of the bytes in `bs`. -/
def MadeFrom (char : Char → β → α) (bad : β → List α) (bs : List β) (a : α) : Prop :=
  ∃ b ∈ bs, (∃ c, a = char c b) ∨ a ∈ bad b

theorem MadeFrom.mono {bs : List β} (h : MadeFrom char bad bs a) (hsub : bs ⊆ t) :
    MadeFrom char bad t a :=
  let ⟨b, hb, ha⟩ := h
  ⟨b, hsub hb, ha⟩

theorem step_madeFrom (h : a ∈ (step byte char bad q b).1) :
    MadeFrom char bad (b :: (q.map Pending.first).toList) a := by
  have hstart : a ∈ (start byte char bad b).1 → MadeFrom char bad [b] a := by
    intro h
    obtain ⟨c, hs⟩ | hs | ⟨p, -, hs⟩ := start_cases byte char bad b <;> rw [hs] at h
    · exact ⟨b, by simp, .inl ⟨c, by simpa using h⟩⟩
    · exact ⟨b, by simp, .inr h⟩
    · simp at h
  cases q with
  | none => exact hstart h
  | some p =>
    simp only [step] at h
    split at h
    · split at h
      · exact ⟨p.first, by simp, .inl ⟨_, by simpa using h⟩⟩
      · simp at h
    · rcases List.mem_append.mp h with h | h
      · exact ⟨p.first, by simp, .inr h⟩
      · exact (hstart h).mono (by simp)

theorem first_of_step {p : Pending β} (h : (step byte char bad q b).2 = some p) :
    p.first ∈ b :: (q.map Pending.first).toList := by
  have hstart : (start byte char bad b).2 = some p → p.first = b := by
    intro h
    obtain ⟨c, hs⟩ | hs | ⟨p', hp', hs⟩ := start_cases byte char bad b <;> rw [hs] at h <;> cases h
    exact hp'
  cases q with
  | none => exact List.mem_cons.mpr (.inl (hstart h))
  | some p' =>
    simp only [step] at h
    split at h
    · split at h <;> cases h
      simp
    · exact List.mem_cons.mpr (.inl (hstart h))

theorem madeFrom_of_mem (h : a ∈ decodeFrom byte char bad q t) :
    MadeFrom char bad ((q.map Pending.first).toList ++ t) a := by
  induction t generalizing q with
  | nil =>
    cases q with
    | none => simp [decodeFrom] at h
    | some p => exact ⟨p.first, by simp, .inr h⟩
  | cons b t ih =>
    rw [decodeFrom, List.mem_append] at h
    rcases h with h | h
    · exact (step_madeFrom h).mono (by simp)
    · refine (ih h).mono fun d hd ↦ ?_
      rcases List.mem_append.mp hd with hd | hd
      · obtain ⟨p, hp, rfl⟩ : ∃ p, (step byte char bad q b).2 = some p ∧ p.first = d := by
          simpa using hd
        have := first_of_step hp
        simp only [List.mem_cons, List.mem_append] at this ⊢
        tauto
      · simp [hd]

/-- Every symbol of a decoded text was made from one of its bytes. -/
theorem madeFrom_of_mem_decode (h : a ∈ decode byte char bad t) : MadeFrom char bad t a :=
  madeFrom_of_mem h

/-- A character begun with a byte that carries something else. -/
def Pending.map (g : β → β') (p : Pending β) : Pending β' := { p with first := g p.first }

section Map

variable {byte' : β' → UInt8} {char' : Char → β' → α'} {bad' : β' → List α'} {f : α → α'}
  {g : β → β'} (hbyte : ∀ b, byte' (g b) = byte b)
  (hchar : ∀ c b, f (char c b) = char' c (g b)) (hbad : ∀ b, (bad b).map f = bad' (g b))
include hbyte hchar hbad

theorem map_start : ((start byte char bad b).1.map f, (start byte char bad b).2.map (Pending.map g))
    = start byte' char' bad' (g b) := by
  rw [start, start, hbyte]
  split <;> simp [hchar, hbad, Pending.map]

theorem map_step :
    ((step byte char bad q b).1.map f, (step byte char bad q b).2.map (Pending.map g))
      = step byte' char' bad' (q.map (Pending.map g)) (g b) := by
  have hstart := map_start hbyte hchar hbad (b := b)
  cases q with
  | none => exact hstart
  | some p =>
    obtain ⟨⟨more, low, high, bits, hlow, hhigh⟩, first⟩ := p
    simp only [step, hbyte, Option.map_some, Pending.map]
    split
    · cases more <;> simp [hchar, Pending.map]
    · rw [← hstart, List.map_append, hbad]

theorem map_decodeFrom : (decodeFrom byte char bad q t).map f
    = decodeFrom byte' char' bad' (q.map (Pending.map g)) (t.map g) := by
  induction t generalizing q with
  | nil =>
    cases q with
    | none => rfl
    | some p => exact hbad p.first
  | cons b t ih =>
    rw [decodeFrom, List.map_append, ih, List.map_cons, decodeFrom,
      ← map_step hbyte hchar hbad]

/-- Decoding does not depend on what the bytes carry besides their value. -/
theorem map_decode :
    (decode byte char bad t).map f = decode byte' char' bad' (t.map g) :=
  map_decodeFrom hbyte hchar hbad

end Map

/-! ## Synchronisation -/

/-- What follows is no continuation of a character. -/
def Fresh (byte : β → UInt8) (t : List β) : Prop :=
  ∀ b ∈ t.head?, (byte b).toNat < 0x80 ∨ 0xC0 ≤ (byte b).toNat

theorem decodeFrom_of_fresh (h : Fresh byte t) :
    decodeFrom byte char bad q t = decodeFrom byte char bad q [] ++ decode byte char bad t := by
  cases q with
  | none => rfl
  | some p =>
    cases t with
    | nil => simp [decode, decodeFrom]
    | cons b t =>
      have hb := h b rfl
      have hno : ¬ (p.low ≤ (byte b).toNat ∧ (byte b).toNat ≤ p.high) := by
        have := p.low_le
        have := p.le_high
        omega
      simp only [decode, decodeFrom, step, if_neg hno, List.append_assoc]

theorem decode_append (h : Fresh byte y) :
    decode byte char bad (x ++ y) = decode byte char bad x ++ decode byte char bad y := by
  have hfrom : ∀ q : Option (Pending β), decodeFrom byte char bad q (x ++ y)
      = decodeFrom byte char bad q x ++ decode byte char bad y := by
    induction x with
    | nil => exact fun q ↦ decodeFrom_of_fresh h
    | cons b x ih =>
      intro q
      rw [List.cons_append, decodeFrom, ih, decodeFrom, List.append_assoc]
  exact hfrom none

/-! ## Encoded texts -/

/-- A byte begins a character: `more` bytes come after one that may be `w`. -/
def Begins (n more bits w : ℕ) : Prop :=
  ∃ rest : Rest, lead n = .begins rest ∧ rest.more = more ∧ rest.bits = bits ∧ rest.low ≤ w
    ∧ w ≤ rest.high

variable {n v w more : ℕ}

theorem begins_two (hlow : 0xC2 ≤ n) (hhigh : n < 0xE0) (hw : 0x80 ≤ w ∧ w ≤ 0xBF) :
    Begins n 0 (n - 0xC0) w := by
  unfold Begins lead
  rw [if_neg (by omega), if_neg (by omega), if_pos hhigh]
  exact ⟨_, rfl, rfl, rfl, hw⟩

theorem begins_three (hlow : 0xE0 ≤ n) (hhigh : n < 0xF0) (hw : 0x80 ≤ w ∧ w ≤ 0xBF)
    (hfirst : n = 0xE0 → 0xA0 ≤ w) (hsurrogate : n = 0xED → w ≤ 0x9F) :
    Begins n 1 (n - 0xE0) w := by
  unfold Begins lead
  rw [if_neg (by omega), if_neg (by omega), if_neg (by omega), if_pos hhigh]
  split
  next h => exact ⟨_, rfl, rfl, by rw [h], hfirst h, hw.2⟩
  split
  next h => exact ⟨_, rfl, rfl, by rw [h], hw.1, hsurrogate h⟩
  exact ⟨_, rfl, rfl, rfl, hw⟩

theorem begins_four (hlow : 0xF0 ≤ n) (hhigh : n ≤ 0xF4) (hw : 0x80 ≤ w ∧ w ≤ 0xBF)
    (hfirst : n = 0xF0 → 0x90 ≤ w) (hlast : n = 0xF4 → w ≤ 0x8F) : Begins n 2 (n - 0xF0) w := by
  unfold Begins lead
  rw [if_neg (by omega), if_neg (by omega), if_neg (by omega), if_neg (by omega), if_neg (by omega),
    if_neg (by omega)]
  split
  next h => exact ⟨_, rfl, rfl, by rw [h], hfirst h, hw.2⟩
  split
  next h => exact ⟨_, rfl, rfl, rfl, hw⟩
  next h =>
    have hn : n = 0xF4 := by omega
    rw [if_pos hn]
    exact ⟨_, rfl, rfl, by rw [hn], hw.1, hlast hn⟩

theorem start_begins {rest : Rest} (hn : (byte b).toNat = n) (h : lead n = .begins rest) :
    start byte char bad b = ([], some { rest with first := b }) := by
  rw [start, hn, h]

variable {rest : Rest} {b₁ : β}

theorem step_last (hmore : rest.more = 0) (hn : (byte b).toNat = n) (hlow : rest.low ≤ n)
    (hhigh : n ≤ rest.high) (hv : rest.bits * 64 + (n - 0x80) = v) :
    step byte char bad (some ⟨rest, b₁⟩) b = ([char (Char.ofNat v) b₁], none) := by
  simp only [step, hn, if_pos (And.intro hlow hhigh), hmore, hv]

theorem step_more (hmore : rest.more = more + 1) (hn : (byte b).toNat = n) (hlow : rest.low ≤ n)
    (hhigh : n ≤ rest.high) :
    ∃ rest' : Rest, step byte char bad (some ⟨rest, b₁⟩) b = ([], some ⟨rest', b₁⟩)
      ∧ rest'.more = more ∧ rest'.bits = rest.bits * 64 + (n - 0x80) ∧ rest'.low = 0x80
      ∧ rest'.high = 0xBF := by
  simp only [step, hn, if_pos (And.intro hlow hhigh), hmore]
  exact ⟨_, rfl, rfl, rfl, rfl, rfl⟩

/-- The bytes of a character are decoded to it, and decoding goes on after them. -/
theorem decode_encodeChar {c : Char} (h : m.map byte = String.utf8EncodeChar c) :
    ∃ b ∈ m, ∀ t, decode byte char bad (m ++ t) = char c b :: decode byte char bad t := by
  have hval : c.val.toNat < 0xD800 ∨ 0xDFFF < c.val.toNat ∧ c.val.toNat < 0x110000 := c.valid
  have hchar : Char.ofNat c.val.toNat = c := Char.ofNat_toNat c
  have hof : ∀ n < 256, (UInt8.ofNat n).toNat = n := fun n hn ↦ by simp; omega
  unfold String.utf8EncodeChar at h
  generalize c.val.toNat = v at hval hchar h
  simp only at h
  split_ifs at h with h₁ h₂ h₃ <;> simp only [List.map_eq_cons_iff, List.map_eq_nil_iff] at h
  · obtain ⟨b, _, rfl, hb, rfl⟩ := h
    have hn : (byte b).toNat = v := by rw [hb, hof _ (by omega)]
    have hlead : lead v = .single := if_pos (by omega)
    refine ⟨b, by simp, fun t ↦ ?_⟩
    simp only [decode, List.cons_append, List.nil_append, decodeFrom, step, start, hn, hlead, hchar]
  · obtain ⟨b₁, _, rfl, hb₁, b₂, _, rfl, hb₂, rfl⟩ := h
    have hn₁ : (byte b₁).toNat = v / 64 + 0xC0 := by rw [hb₁, hof _ (by omega)]; omega
    have hn₂ : (byte b₂).toNat = v % 64 + 0x80 := by rw [hb₂, hof _ (by omega)]
    obtain ⟨rest, hlead, hmore, hbits, hlow, hhigh⟩ : Begins (v / 64 + 0xC0) 0 _ (v % 64 + 0x80) :=
      begins_two (by omega) (by omega) (by omega)
    refine ⟨b₁, by simp, fun t ↦ ?_⟩
    simp only [decode, List.cons_append, List.nil_append, decodeFrom, step.eq_1,
      start_begins hn₁ hlead, step_last (v := v) hmore hn₂ hlow hhigh (by omega), hchar]
  · obtain ⟨b₁, _, rfl, hb₁, b₂, _, rfl, hb₂, b₃, _, rfl, hb₃, rfl⟩ := h
    have hn₁ : (byte b₁).toNat = v / 4096 + 0xE0 := by rw [hb₁, hof _ (by omega)]; omega
    have hn₂ : (byte b₂).toNat = v / 64 % 64 + 0x80 := by rw [hb₂, hof _ (by omega)]
    have hn₃ : (byte b₃).toNat = v % 64 + 0x80 := by rw [hb₃, hof _ (by omega)]
    obtain ⟨rest, hlead, hmore, hbits, hlow, hhigh⟩ :
        Begins (v / 4096 + 0xE0) 1 _ (v / 64 % 64 + 0x80) :=
      begins_three (by omega) (by omega) (by omega) (by omega) (by omega)
    obtain ⟨rest₂, hstep : step byte char bad (some ⟨rest, b₁⟩) b₂ = _, hmore₂, hbits₂, hlow₂,
      hhigh₂⟩ := step_more hmore hn₂ hlow hhigh
    refine ⟨b₁, by simp, fun t ↦ ?_⟩
    simp only [decode, List.cons_append, List.nil_append, decodeFrom, step.eq_1,
      start_begins hn₁ hlead, hstep,
      step_last (v := v) hmore₂ hn₃ (by omega) (by omega) (by omega), hchar]
  · obtain ⟨b₁, _, rfl, hb₁, b₂, _, rfl, hb₂, b₃, _, rfl, hb₃, b₄, _, rfl, hb₄, rfl⟩ := h
    have hn₁ : (byte b₁).toNat = v / 262144 + 0xF0 := by rw [hb₁, hof _ (by omega)]; omega
    have hn₂ : (byte b₂).toNat = v / 4096 % 64 + 0x80 := by rw [hb₂, hof _ (by omega)]
    have hn₃ : (byte b₃).toNat = v / 64 % 64 + 0x80 := by rw [hb₃, hof _ (by omega)]
    have hn₄ : (byte b₄).toNat = v % 64 + 0x80 := by rw [hb₄, hof _ (by omega)]
    obtain ⟨rest, hlead, hmore, hbits, hlow, hhigh⟩ :
        Begins (v / 262144 + 0xF0) 2 _ (v / 4096 % 64 + 0x80) :=
      begins_four (by omega) (by omega) (by omega) (by omega) (by omega)
    obtain ⟨rest₂, hstep : step byte char bad (some ⟨rest, b₁⟩) b₂ = _, hmore₂, hbits₂, hlow₂,
      hhigh₂⟩ := step_more hmore hn₂ hlow hhigh
    obtain ⟨rest₃, hstep₃ : step byte char bad (some ⟨rest₂, b₁⟩) b₃ = _, hmore₃, hbits₃, hlow₃,
      hhigh₃⟩ := step_more hmore₂ hn₃ (by omega) (by omega)
    refine ⟨b₁, by simp, fun t ↦ ?_⟩
    simp only [decode, List.cons_append, List.nil_append, decodeFrom, step.eq_1,
      start_begins hn₁ hlead, hstep, hstep₃,
      step_last (v := v) hmore₃ hn₄ (by omega) (by omega) (by omega), hchar]

theorem fresh_encodeChar {c : Char} (h : m.map byte = String.utf8EncodeChar c) :
    Fresh byte (m ++ t) := by
  have hval : c.val.toNat < 0x110000 := by
    have := c.valid
    unfold UInt32.isValidChar Nat.isValidChar at this
    omega
  have hof : ∀ n < 256, (UInt8.ofNat n).toNat = n := fun n hn ↦ by simp; omega
  unfold String.utf8EncodeChar at h
  generalize c.val.toNat = v at hval h
  simp only at h
  split_ifs at h <;> obtain ⟨b, _, rfl, hb, -⟩ := List.map_eq_cons_iff.mp h <;>
    (intro b' hb'; obtain rfl : b = b' := by simpa using hb') <;>
    rw [hb, hof _ (by omega)] <;> omega

theorem encode_cons (c : Char) (cs : List Char) :
    encode (c :: cs) = String.utf8EncodeChar c ++ encode cs :=
  List.flatMap_cons

theorem encode_ne_nil {cs : List Char} (h : cs ≠ []) : encode cs ≠ [] := by
  cases cs with
  | nil => exact absurd rfl h
  | cons c cs =>
    rw [encode_cons]
    exact List.append_ne_nil_of_left_ne_nil String.utf8EncodeChar_ne_nil _

theorem fresh_encode {cs : List Char} (h : m.map byte = encode cs) (hne : cs ≠ []) :
    Fresh byte (m ++ t) := by
  cases cs with
  | nil => exact absurd rfl hne
  | cons c cs =>
    rw [encode_cons] at h
    obtain ⟨m₁, m₂, rfl, h₁, -⟩ := List.map_eq_append_iff.mp h
    rw [List.append_assoc]
    exact fresh_encodeChar h₁

/-- An encoded text is decoded to itself, and decoding goes on after it. -/
theorem decode_encode {cs : List Char} {key : α → Char} (hkey : ∀ c b, key (char c b) = c)
    (h : m.map byte = encode cs) : (decode byte char bad m).map key = cs ∧
      decode byte char bad (m ++ t) = decode byte char bad m ++ decode byte char bad t := by
  induction cs generalizing m with
  | nil =>
    obtain rfl := List.map_eq_nil_iff.mp h
    exact ⟨rfl, rfl⟩
  | cons c cs ih =>
    rw [encode_cons] at h
    obtain ⟨m₁, m₂, rfl, h₁, h₂⟩ := List.map_eq_append_iff.mp h
    obtain ⟨hkeys, happend⟩ := ih h₂
    obtain ⟨b, -, hb : ∀ t, decode byte char bad (m₁ ++ t) = _⟩ := decode_encodeChar h₁
    refine ⟨by rw [hb, List.map_cons, hkey, hkeys], ?_⟩
    rw [List.append_assoc, hb, hb, happend, List.cons_append]

/-- An encoded text is decoded as such wherever it stands. -/
theorem decode_append_encode {cs : List Char} {key : α → Char}
    (hkey : ∀ c b, key (char c b) = c) (h : m.map byte = encode cs) (hne : cs ≠ []) :
    (decode byte char bad m).map key = cs ∧ decode byte char bad (x ++ m ++ y)
      = decode byte char bad x ++ decode byte char bad m ++ decode byte char bad y := by
  obtain ⟨hkeys, happend⟩ := decode_encode (t := y) hkey h
  refine ⟨hkeys, ?_⟩
  rw [List.append_assoc, decode_append (fresh_encode h hne), happend, List.append_assoc]

end Decode

variable {cs : List Char} {bad : UInt8 → List Char}

/-- A byte of the first half stands for itself. -/
theorem encodeChar_of_lt {c : Char} {b : UInt8} (h : b ∈ String.utf8EncodeChar c)
    (hb : b.toNat < 0x80) : String.utf8EncodeChar c = [b] ∧ c.toNat = b.toNat := by
  have hval : c.val.toNat < 0x110000 := by
    have := c.valid
    unfold UInt32.isValidChar Nat.isValidChar at this
    omega
  have hof : ∀ n < 256, (UInt8.ofNat n).toNat = n := fun n hn ↦ by simp; omega
  rw [Char.toNat]
  unfold String.utf8EncodeChar at h ⊢
  generalize c.val.toNat = v at hval h ⊢
  simp only at h ⊢
  split_ifs at h ⊢
  · obtain rfl := List.mem_singleton.mp h
    exact ⟨rfl, (hof v (by omega)).symm⟩
  -- every byte of a longer character is in the second half
  all_goals
    exfalso
    simp only [List.mem_cons, List.not_mem_nil, or_false] at h
    obtain rfl | rfl | rfl | rfl := h <;> rw [hof _ (by omega)] at hb <;> omega

theorem mem_of_mem_encode {cs : List Char} {b : UInt8} (h : b ∈ encode cs) (hb : b.toNat < 0x80) :
    Char.ofNat b.toNat ∈ cs := by
  obtain ⟨c, hc, hbyte⟩ := List.mem_flatMap.mp h
  rw [← (encodeChar_of_lt hbyte hb).2, Char.ofNat_toNat]
  exact hc

/-- A text whose bytes are all in the first half. -/
theorem map_encode {cs : List Char} (h : ∀ b ∈ encode cs, b.toNat < 0x80) :
    (encode cs).map (fun b ↦ Char.ofNat b.toNat) = cs := by
  induction cs with
  | nil => rfl
  | cons c cs ih =>
    rw [encode_cons] at h ⊢
    obtain ⟨b, hb⟩ := List.exists_mem_of_ne_nil _ (String.utf8EncodeChar_ne_nil (c := c))
    obtain ⟨hsingle, hchar⟩ := encodeChar_of_lt hb (h b (List.mem_append_left _ hb))
    rw [List.map_append, ih fun b hb ↦ h b (List.mem_append_right _ hb), hsingle, List.map_singleton,
      ← hchar, Char.ofNat_toNat]
    rfl

/-- A text found among bytes of the first half is found in the text these stand for. -/
theorem infix_of_encode {cs cs' : List Char} (h : encode cs <:+: encode cs')
    (hcs' : ∀ b ∈ encode cs', b.toNat < 0x80) : cs <:+: cs' := by
  have hcs : ∀ b ∈ encode cs, b.toNat < 0x80 := fun b hb ↦ hcs' b (h.subset hb)
  rw [← map_encode hcs, ← map_encode hcs']
  exact h.map _

theorem encode_append (cs cs' : List Char) : encode (cs ++ cs') = encode cs ++ encode cs' :=
  List.flatMap_append

theorem utf8ByteSize_ofList (cs : List Char) :
    (String.ofList cs).utf8ByteSize = (encode cs).length := by
  rw [← String.size_toByteArray, String.toByteArray_ofList, List.utf8Encode, List.size_toByteArray,
    encode]

/-! ## Decoding strictly -/

/-- The text some bytes stand for, if they all stand for something. -/
def decodeStrict (t : List UInt8) : Option (List Char) :=
  (decode id (fun c _ ↦ some c) (fun _ ↦ [none]) t).mapM id

theorem decodeStrict_encode (cs : List Char) : decodeStrict (encode cs) = some cs := by
  have hdecode : decode id (fun c _ ↦ some c) (fun _ ↦ [none]) (encode cs) = cs.map some := by
    induction cs with
    | nil => rfl
    | cons c cs ih =>
      obtain ⟨b, -, hb⟩ : ∃ b ∈ String.utf8EncodeChar c, ∀ t,
          decode id (fun c _ ↦ some c) (fun _ ↦ [none]) (String.utf8EncodeChar c ++ t)
            = some c :: decode id (fun c _ ↦ some c) (fun _ ↦ [none]) t :=
        decode_encodeChar (List.map_id _)
      rw [encode_cons, hb, ih, List.map_cons]
  rw [decodeStrict, hdecode, List.mapM_map]
  exact (List.mapM_pure (m := Option) (f := id)).trans (by rw [List.map_id]; rfl)

/-! ## The size of a decoded text -/

section Size

variable {α β : Type} {byte : β → UInt8} {char : Char → β → α} {key : α → Char} {b : β} {k : ℕ}
  {q : Option (Pending β)}

/-- The code points of up to `k` bytes. -/
def sizeLimit (k : ℕ) : ℕ := if k = 1 then 0x80 else if k = 2 then 0x800 else 0x10000

theorem length_encodeChar_le (c : Char) : (String.utf8EncodeChar c).length ≤ 4 := by
  unfold String.utf8EncodeChar
  simp only
  split_ifs <;> simp

theorem length_encodeChar_ofNat {v : ℕ} (hk : 1 ≤ k) (h : k = 4 ∨ v < sizeLimit k) :
    (String.utf8EncodeChar (Char.ofNat v)).length ≤ k := by
  rcases h with rfl | h
  · exact length_encodeChar_le _
  · have hval : (Char.ofNat v).val.toNat ≤ v := by
      unfold Char.ofNat
      split
      · simp [Char.ofNatAux]
      · exact Nat.zero_le _
    unfold String.utf8EncodeChar
    rw [sizeLimit] at h
    simp only
    split_ifs at h ⊢ <;> simp only [List.length_cons, List.length_nil] <;> omega

/-- The `k` bytes that have been read of a character are as many as it needs, less those missing. -/
def Sized : ℕ → Option (Pending β) → Prop
  | k, none => k = 0
  | k, some p => 1 ≤ k ∧ (k + p.more + 1 = 4
      ∨ (p.bits + 1) * 64 ^ (p.more + 1) ≤ sizeLimit (k + p.more + 1))

theorem lead_begins {n : ℕ} {rest : Rest} (h : lead n = .begins rest) :
    rest.more = 0 ∧ rest.bits < 32 ∨ rest.more = 1 ∧ rest.bits < 16 ∨ rest.more = 2 := by
  unfold lead at h
  split_ifs at h <;> cases h <;> simp
  all_goals omega

theorem sized_lead {n : ℕ} {rest : Rest} (h : lead n = .begins rest) (b : β) :
    Sized 1 (some { rest with first := b }) := by
  refine ⟨Nat.le_refl 1, ?_⟩
  obtain ⟨hmore, hbits⟩ | ⟨hmore, hbits⟩ | hmore := lead_begins h
  · refine .inr ?_
    simp only [hmore, sizeLimit]
    exact Nat.mul_le_mul_right _ hbits
  · refine .inr ?_
    simp only [hmore, sizeLimit]
    exact Nat.mul_le_mul_right _ hbits
  · refine .inl ?_
    simp only [hmore]

variable (hkey : ∀ c b, key (char c b) = c)
include hkey

theorem start_sized (b : β) : ∃ k, Sized k (start byte char (fun _ ↦ []) b).2
    ∧ (encode ((start byte char (fun _ ↦ []) b).1.map key)).length + k ≤ 1 := by
  rw [start]
  cases hlead : lead (byte b).toNat with
  | single =>
    refine ⟨0, rfl, ?_⟩
    have hsmall : (byte b).toNat < sizeLimit 1 := by
      by_contra hlarge
      have hnot : ¬ (byte b).toNat < 0x80 := hlarge
      rw [lead, if_neg hnot] at hlead
      split_ifs at hlead
    simpa [hkey, encode] using length_encodeChar_ofNat (Nat.le_refl 1) (.inr hsmall)
  | invalid => exact ⟨0, rfl, by simp [encode]⟩
  | begins rest => exact ⟨1, sized_lead hlead b, by simp [encode]⟩

theorem step_sized (hq : Sized k q) (b : β) : ∃ k', Sized k' (step byte char (fun _ ↦ []) q b).2
    ∧ (encode ((step byte char (fun _ ↦ []) q b).1.map key)).length + k' ≤ k + 1 := by
  obtain ⟨k', hk', hle⟩ : ∃ k, Sized k (start byte char (fun _ ↦ []) b).2 ∧ _ := start_sized hkey b
  cases q with
  | none => exact ⟨k', hk', Nat.le_trans hle (Nat.le_add_left _ _)⟩
  | some p =>
    obtain ⟨hk, hsize⟩ := hq
    simp only [step]
    split
    next hrange =>
      have hhigh := p.le_high
      have hbits : p.bits * 64 + ((byte b).toNat - 0x80) + 1 ≤ (p.bits + 1) * 64 := by omega
      cases hmore : p.more with
      | zero =>
        rw [hmore] at hsize
        refine ⟨0, rfl, ?_⟩
        have hlen := length_encodeChar_ofNat (v := p.bits * 64 + ((byte b).toNat - 0x80))
          (Nat.le_add_left 1 k) (hsize.imp_right fun h ↦ Nat.lt_of_lt_of_le
            (Nat.lt_of_succ_le hbits) (by simpa using h))
        simpa [hkey, encode] using hlen
      | succ more =>
        refine ⟨k + 1, ⟨Nat.le_add_left 1 k, ?_⟩, by simp [encode]⟩
        rw [hmore] at hsize
        refine hsize.imp (fun h ↦ by simp only; omega) fun h ↦ ?_
        have hpow : (p.bits * 64 + ((byte b).toNat - 0x80) + 1) * 64 ^ (more + 1)
            ≤ (p.bits + 1) * 64 ^ (more + 1 + 1) := by
          rw [Nat.pow_succ' (m := 64) (n := more + 1), ← Nat.mul_assoc]
          exact Nat.mul_le_mul_right _ hbits
        have hsum : k + (more + 1) + 1 = k + 1 + more + 1 := by omega
        rw [hsum] at h
        exact Nat.le_trans hpow h
    next =>
      refine ⟨k', hk', ?_⟩
      simpa using Nat.le_trans hle (Nat.le_add_left 1 k)

/-- A text decoded with nothing left of errors is no larger than its bytes. -/
theorem length_encode_decode (t : List β) :
    (encode ((decode byte char (fun _ ↦ []) t).map key)).length ≤ t.length := by
  have hfrom : ∀ (q : Option (Pending β)) (k : ℕ), Sized k q →
      (encode ((decodeFrom byte char (fun _ ↦ []) q t).map key)).length ≤ k + t.length := by
    induction t with
    | nil => intro q k _; cases q <;> simp [decodeFrom, encode]
    | cons b t ih =>
      intro q k hq
      obtain ⟨k', hk', hle⟩ : ∃ k', Sized k' (step byte char (fun _ ↦ []) q b).2 ∧ _ :=
        step_sized hkey hq b
      have hrest := ih _ k' hk'
      rw [decodeFrom, List.map_append, encode, List.flatMap_append, List.length_append, ← encode,
        ← encode, List.length_cons]
      omega
  exact (Nat.zero_add t.length) ▸ hfrom none 0 rfl

end Size

end Utf8
