import Mathlib

/-!
# Spaces

`strip` drops the spaces at both ends of a text and leaves everything else; `words` are the parts
between spaces.
-/

namespace Text

/-- The characters `str.isspace` accepts. -/
def spaces : List Char :=
  ['\t', '\n', '\x0b', '\x0c', '\r', '\x1c', '\x1d', '\x1e', '\x1f', ' ', '\u0085', '\u00a0', '\u1680',
    '\u2000', '\u2001', '\u2002', '\u2003', '\u2004', '\u2005', '\u2006', '\u2007', '\u2008', '\u2009',
    '\u200a', '\u2028', '\u2029', '\u202f', '\u205f', '\u3000']

def isSpace (c : Char) : Bool := c ∈ spaces

/-- `str.strip` -/
def strip (t : List Char) : List Char := (t.dropWhile isSpace).rdropWhile isSpace

/-- `str.split`, without a separator. -/
def words (t : List Char) : List (List Char) := (t.splitOnP isSpace).filter fun w ↦ !w.isEmpty

variable {x t : List Char} {c : Char}

/-- Stripping leaves what is no space. -/
theorem count_strip {a : Char} (ha : isSpace a = false) (t : List Char) :
    (strip t).count a = t.count a := by
  have hzero : ∀ u : List Char, (∀ c ∈ u, isSpace c = true) → u.count a = 0 := by
    intro u hu
    rw [List.count_eq_zero]
    intro hmem
    rw [hu a hmem] at ha
    cases ha
  have hleft := congrArg (List.count a) (List.takeWhile_append_dropWhile (p := isSpace) (l := t))
  have hright := congrArg (List.count a)
    (List.rdropWhile_append_rtakeWhile (p := isSpace) (l := t.dropWhile isSpace))
  rw [List.count_append, hzero _ fun c ↦ List.mem_takeWhile_imp, Nat.zero_add] at hleft
  rw [List.count_append, hzero _ fun c ↦ List.mem_rtakeWhile_imp, Nat.add_zero] at hright
  rw [strip, hright, hleft]

/-- Spaces at the end of a text are not dropped beyond another character. -/
theorem rdropWhile_append_cons {p : Char → Bool} (hc : p c = false) (x t : List Char) :
    (x ++ c :: t).rdropWhile p = x ++ c :: t.rdropWhile p := by
  induction t using List.reverseRecOn with
  | nil => rw [List.rdropWhile_concat_neg _ _ _ (by simp [hc]), List.rdropWhile_nil]
  | append_singleton t b ih =>
    rw [← List.cons_append, ← List.append_assoc]
    by_cases hb : p b = true
    · rw [List.rdropWhile_concat_pos _ _ _ hb, List.rdropWhile_concat_pos _ _ _ hb, ih]
    · rw [List.rdropWhile_concat_neg _ _ _ hb, List.rdropWhile_concat_neg _ _ _ hb,
        List.append_assoc, List.cons_append]

end Text
