import Mathlib

/-!
# Texts and their lines

The symbols of a text may carry more than their character (`Symbol`), for example where they come
from (`Traced`). `splitlines` ends a line at each of the ten characters that separate lines, a
carriage return and the line feed after it counting as one; a text that ends with a separator has
no empty line after it.

A part without separators lies within one line, and the other lines are made of what comes before
and after it (`splitlines_append`).
-/

namespace Text

/-- A type whose values are characters that may carry more. -/
class Symbol (α : Type) where
  char : α → Char
  /-- A character written by the program itself. -/
  lit : Char → α
  /-- Another character in place of a symbol's own. -/
  put : Char → α → α
  char_lit : ∀ c, char (lit c) = c
  char_put : ∀ c a, char (put c a) = c

attribute [simp] Symbol.char_lit Symbol.char_put

instance : Symbol Char := ⟨id, id, fun c _ ↦ c, fun _ ↦ rfl, fun _ _ ↦ rfl⟩

/-- A character and where it was read, if it was. -/
structure Traced (ι : Type) where
  char : Char
  origin : Option ι
deriving DecidableEq

instance {ι : Type} : Symbol (Traced ι) :=
  ⟨Traced.char, fun c ↦ ⟨c, none⟩, fun c a ↦ ⟨c, a.origin⟩, fun _ ↦ rfl, fun _ _ ↦ rfl⟩

open Symbol

/-- A function between symbols that keeps their characters. -/
structure Forgets {α β : Type} [Symbol α] [Symbol β] (f : α → β) : Prop where
  char : ∀ a, char (f a) = char a
  lit : ∀ c, f (lit c) = lit c
  put : ∀ c a, f (put c a) = put c (f a)

theorem Traced.forgets {ι : Type} : Forgets (Traced.char : Traced ι → Char) :=
  ⟨fun _ ↦ rfl, fun _ ↦ rfl, fun _ _ ↦ rfl⟩

/-! ## Parts of a line -/

section Parts

variable {α : Type} (p : α → Bool)

/-- What comes before the first symbol that `p` accepts, that symbol, and what comes after it. -/
def partition (t : List α) : List α × List α × List α :=
  (t.takeWhile fun a ↦ !p a, (t.dropWhile fun a ↦ !p a).take 1,
    (t.dropWhile fun a ↦ !p a).drop 1)

theorem partition_append (t : List α) :
    (partition p t).1 ++ (partition p t).2.1 ++ (partition p t).2.2 = t := by
  simp only [partition, List.append_assoc, List.take_append_drop, List.takeWhile_append_dropWhile]

variable {p} {x y : List α} {a : α}

theorem partition_cons_of_pos (hx : ∀ b ∈ x, p b = false) (ha : p a = true) :
    partition p (x ++ a :: y) = (x, [a], y) := by
  have hx' : ∀ b ∈ x, (!p b) = true := fun b hb ↦ by simp [hx b hb]
  simp [partition, List.takeWhile_append_of_pos hx', List.dropWhile_append_of_pos hx', ha]

theorem map_partition {β : Type} (q : β → Bool) (f : α → β) (t : List α) :
    partition q (t.map f) = ((partition (q ∘ f) t).1.map f, (partition (q ∘ f) t).2.1.map f,
      (partition (q ∘ f) t).2.2.map f) := by
  simp only [partition, List.takeWhile_map, List.dropWhile_map, List.map_take, List.map_drop]
  rfl

/-- A text either has no symbol that `p` accepts, or a first one. -/
theorem partition_cases (p : α → Bool) (t : List α) : (∀ b ∈ t, p b = false)
    ∨ ∃ x a y, t = x ++ a :: y ∧ (∀ b ∈ x, p b = false) ∧ p a = true := by
  induction t with
  | nil => simp
  | cons b t ih =>
    by_cases hb : p b = true
    · exact .inr ⟨[], b, t, rfl, by simp, hb⟩
    · rcases ih with ih | ⟨x, a, y, rfl, hx, ha⟩
      · exact .inl (by simpa [hb] using ih)
      · exact .inr ⟨b :: x, a, y, rfl, by simpa [hb] using hx, ha⟩

theorem partition_of_mem (h : ∃ b ∈ x, p b = true) (y : List α) : partition p (x ++ y)
    = ((partition p x).1, (partition p x).2.1, (partition p x).2.2 ++ y) := by
  rcases partition_cases p x with hno | ⟨x₁, a, x₂, rfl, hx₁, ha⟩
  · obtain ⟨b, hb, hpb⟩ := h
    rw [hno b hb] at hpb
    cases hpb
  · rw [List.append_assoc, List.cons_append, partition_cons_of_pos hx₁ ha,
      partition_cons_of_pos hx₁ ha]

end Parts

/-! ## Lines -/

/-- The characters `str.splitlines` splits at. -/
def isLineBreak (c : Char) : Bool :=
  c ∈ ['\n', '\r', '\x0b', '\x0c', '\x1c', '\x1d', '\x1e', '\u0085', '\u2028', '\u2029']

section Lines

variable {α β : Type} [Symbol α] [Symbol β]

/-- The lines of a text of which `line` is already read; `cr` when that was a carriage return. -/
def splitlinesFrom (cr : Bool) (line : List α) : List α → List (List α)
  | [] => if line.isEmpty then [] else [line]
  | a :: t =>
    if cr && char a == '\n' then splitlinesFrom false line t
    else if isLineBreak (char a) then line :: splitlinesFrom (char a == '\r') [] t
    else splitlinesFrom false (line ++ [a]) t

def splitlines (t : List α) : List (List α) := splitlinesFrom false [] t

/-- The line a text leaves open, when it began within `line`. -/
def openLine (line : List α) : List α → List α
  | [] => line
  | a :: t => openLine (if isLineBreak (char a) then [] else line ++ [a]) t

/-- The rest of the line a text begins with. -/
def restOfLine (t : List α) : List α := t.takeWhile fun a ↦ !isLineBreak (char a)

variable {cr : Bool} {line t m x y : List α} {f : α → β}

theorem map_splitlinesFrom (hf : Forgets f) :
    (splitlinesFrom cr line t).map (List.map f) = splitlinesFrom cr (line.map f) (t.map f) := by
  induction t generalizing cr line with
  | nil =>
    simp only [splitlinesFrom, List.map_nil, List.isEmpty_map]
    split <;> rfl
  | cons a t ih =>
    simp only [splitlinesFrom, List.map_cons, hf.char]
    split_ifs
    · exact ih
    · rw [List.map_cons, ih, List.map_nil]
    · rw [ih, List.map_append, List.map_singleton]

theorem map_splitlines (hf : Forgets f) :
    (splitlines t).map (List.map f) = splitlines (t.map f) :=
  map_splitlinesFrom hf

theorem map_openLine (hf : Forgets f) : (openLine line t).map f = openLine (line.map f) (t.map f) := by
  induction t generalizing line with
  | nil => rfl
  | cons a t ih =>
    rw [openLine, ih, List.map_cons, openLine, hf.char]
    split
    · rfl
    · rw [List.map_append, List.map_singleton]

theorem map_restOfLine (hf : Forgets f) : (restOfLine t).map f = restOfLine (t.map f) := by
  have hp : (fun a ↦ !isLineBreak (char a)) ∘ f = fun a ↦ !isLineBreak (char a) := by
    funext a
    rw [Function.comp_apply, hf.char]
  rw [restOfLine, restOfLine, List.takeWhile_map, hp]

theorem splitlinesFrom_append (cr : Bool) (line : List α) (hcr : cr = true → line = [])
    (x : List α) :
    ∃ before cr', (∀ l ∈ before, l ⊆ line ++ x) ∧ (cr' = true → openLine line x = [])
      ∧ ∀ t, splitlinesFrom cr line (x ++ t)
        = before ++ splitlinesFrom cr' (openLine line x) t := by
  induction x generalizing cr line with
  | nil => exact ⟨[], cr, by simp, hcr, fun _ ↦ rfl⟩
  | cons a x ih =>
    by_cases hlf : (cr && char a == '\n') = true
    · -- the line feed of a line that its carriage return has ended
      obtain rfl := hcr (by simp_all)
      have hbreak : isLineBreak (char a) = true := by
        have : char a = '\n' := by simp_all
        rw [this]
        decide
      obtain ⟨before, cr', hbefore, hcr', hsplit⟩ := ih false [] (by simp)
      refine ⟨before, cr', fun l hl ↦ List.Subset.trans (hbefore l hl) (by simp), ?_, fun t ↦ ?_⟩
      · simpa only [openLine, hbreak, if_true] using hcr'
      · rw [List.cons_append, splitlinesFrom, if_pos hlf, hsplit, openLine, if_pos hbreak]
    by_cases hbreak : isLineBreak (char a) = true
    · obtain ⟨before, cr', hbefore, hcr', hsplit⟩ :=
        ih (char a == '\r') [] (fun _ ↦ rfl)
      refine ⟨line :: before, cr', ?_, ?_, fun t ↦ ?_⟩
      · intro l hl
        rcases List.mem_cons.mp hl with rfl | hl
        · exact List.subset_append_left _ _
        · exact List.Subset.trans (hbefore l hl) (by simp)
      · simpa only [openLine, hbreak, if_true] using hcr'
      · rw [List.cons_append, splitlinesFrom, if_neg hlf, if_pos hbreak, hsplit, openLine,
          if_pos hbreak, List.cons_append]
    · obtain ⟨before, cr', hbefore, hcr', hsplit⟩ :=
        ih false (line ++ [a]) (by simp)
      refine ⟨before, cr', fun l hl ↦ List.Subset.trans (hbefore l hl) (by simp), ?_, fun t ↦ ?_⟩
      · simpa only [openLine, hbreak, if_false, Bool.false_eq_true] using hcr'
      · rw [List.cons_append, splitlinesFrom, if_neg hlf, if_neg hbreak, hsplit, openLine,
          if_neg hbreak]

theorem not_lineFeed {a : α} (h : isLineBreak (char a) = false) : (char a == '\n') = false := by
  rw [beq_eq_false_iff_ne]
  intro hlf
  rw [hlf] at h
  exact absurd h (by decide)

theorem splitlinesFrom_part (hm : ∀ a ∈ m, isLineBreak (char a) = false) (hne : m ≠ []) :
    splitlinesFrom cr line (m ++ y) = splitlinesFrom false (line ++ m) y := by
  induction m generalizing cr line with
  | nil => exact absurd rfl hne
  | cons a m ih =>
    have ha := hm a List.mem_cons_self
    rw [List.cons_append, splitlinesFrom, not_lineFeed ha, Bool.and_false, if_neg (by simp),
      if_neg (by simp [ha])]
    cases m with
    | nil => rfl
    | cons b m =>
      rw [ih (fun c hc ↦ hm c (List.mem_cons_of_mem _ hc)) (by simp), List.append_assoc]
      rfl

theorem subset_of_mem_splitlinesFrom {l : List α} (h : l ∈ splitlinesFrom cr line t) :
    l ⊆ line ++ t := by
  induction t generalizing cr line with
  | nil =>
    unfold splitlinesFrom at h
    split at h
    · simp at h
    · simp_all
  | cons a t ih =>
    unfold splitlinesFrom at h
    split at h
    · exact List.Subset.trans (ih h) (by simp)
    split at h
    · rcases List.mem_cons.mp h with rfl | h
      · exact List.subset_append_left _ _
      · exact List.Subset.trans (ih h) (by simp)
    · exact List.Subset.trans (ih h) (by simp)

theorem subset_of_mem_splitlines {l : List α} (h : l ∈ splitlines t) : l ⊆ t :=
  subset_of_mem_splitlinesFrom h

theorem splitlinesFrom_rest (hline : line ≠ []) (y : List α) : ∃ after, (∀ l ∈ after, l ⊆ y) ∧
    splitlinesFrom false line y = (line ++ restOfLine y) :: after := by
  induction y generalizing line with
  | nil => exact ⟨[], by simp, by simp [splitlinesFrom, restOfLine, hline]⟩
  | cons a y ih =>
    rw [splitlinesFrom, Bool.false_and, if_neg (by simp)]
    cases hbreak : isLineBreak (char a) with
    | true =>
      refine ⟨splitlinesFrom (char a == '\r') [] y,
        fun l hl ↦ List.Subset.trans (subset_of_mem_splitlinesFrom hl) (by simp), ?_⟩
      simp [restOfLine, hbreak]
    | false =>
      obtain ⟨after, hafter, hsplit⟩ := ih (List.append_ne_nil_of_right_ne_nil line (List.cons_ne_nil a []))
      refine ⟨after, fun l hl ↦ List.Subset.trans (hafter l hl) (by simp), ?_⟩
      rw [if_neg (by simp), hsplit]
      simp [restOfLine, hbreak]

/-- A part without separators lies within one of the lines. -/
theorem splitlines_append (hm : ∀ a ∈ m, isLineBreak (char a) = false) (hne : m ≠ []) :
    ∃ before after, (∀ l ∈ before, l ⊆ x) ∧ (∀ l ∈ after, l ⊆ y) ∧ splitlines (x ++ m ++ y)
      = before ++ (openLine [] x ++ m ++ restOfLine y) :: after := by
  obtain ⟨before, cr, hbefore, -, hsplit⟩ :=
    splitlinesFrom_append false [] (by simp) x
  obtain ⟨after, hafter, hrest⟩ : ∃ after, (∀ l ∈ after, l ⊆ y) ∧
      splitlinesFrom false (openLine [] x ++ m) y = _ := splitlinesFrom_rest (by simp [hne]) y
  refine ⟨before, after, hbefore, hafter, ?_⟩
  rw [splitlines, List.append_assoc, hsplit, splitlinesFrom_part hm hne, hrest]

theorem openLine_subset_append : openLine line x ⊆ line ++ x := by
  induction x generalizing line with
  | nil => simp [openLine]
  | cons a x ih =>
    rw [openLine]
    refine List.Subset.trans ih fun b hb ↦ ?_
    split at hb <;> simp_all

theorem openLine_subset : openLine [] x ⊆ x := openLine_subset_append

theorem restOfLine_subset : restOfLine y ⊆ y := fun _ h ↦ (List.takeWhile_prefix _).subset h

end Lines

end Text
