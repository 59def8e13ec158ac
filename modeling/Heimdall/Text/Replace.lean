import Mathlib

/-!
# Replacing texts one after another

Every occurrence of a pattern is replaced by a mark, from left to right and without overlap
(`replace`), for one pattern after another (`redact`). A later pattern may be found in what earlier
replacements left, together with characters of their marks.

A text may carry more than the symbols a pattern speaks about: patterns are compared under a
function `key`. What is forgotten about the symbols commutes with the replacements (`map_redact`),
so that the origin of each symbol of an outcome can be followed.

## Where a text can be cut

`Separable` says that no replacement crosses from one part of a text to the next, `Apart` that none
does for a sequence of patterns; the outcome is then that of the parts (`redact_append`). Nothing
is left of a part that no replacement takes in part, as `Unsplit` says (`mem_redact_of_unsplit`).
-/

namespace Text

variable {α β γ : Type} [DecidableEq γ] (key : α → γ) (s : List γ) (mark : List α)

/-- The replacements in a text of which the next `k` symbols are already replaced. -/
def replaceFrom : ℕ → List α → List α
  | _, [] => []
  | k + 1, _ :: t => replaceFrom k t
  | 0, a :: t =>
    if s <+: (a :: t).map key then mark ++ replaceFrom (s.length - 1) t else a :: replaceFrom 0 t

/-- Every occurrence of `s`, from left to right and without overlap, replaced by `mark`. -/
def replace (t : List α) : List α := replaceFrom key s mark 0 t

/-- The replacements for one pattern after another. -/
def redact (ss : List (List γ)) (t : List α) : List α :=
  ss.foldl (fun t s ↦ replace key s mark t) t

/-- How many symbols of `y` belong to a replacement that begins in `x`, when the two are one text
of which the first `k` symbols are already replaced. -/
def skipAfter : ℕ → List α → List α → ℕ
  | k, [], _ => k
  | k + 1, _ :: x, y => skipAfter k x y
  | 0, a :: x, y =>
    if s <+: (a :: (x ++ y)).map key then skipAfter (s.length - 1) x y else skipAfter 0 x y

/-- No replacement crosses from `x` to `y`. -/
def Separable (x y : List α) : Prop := skipAfter key s 0 x y = 0

instance (x y : List α) : Decidable (Separable key s x y) :=
  inferInstanceAs (Decidable (_ = _))

/-- No replacement crosses from `x` to `y`, whichever pattern's turn it is. -/
def Apart : List (List γ) → List α → List α → Prop
  | [], _, _ => True
  | s :: ss, x, y => Separable key s x y ∧ Apart ss (replace key s mark x) (replace key s mark y)

/-- Until `m` is gone, no replacement in `x ++ m ++ y` takes a part of it and leaves the rest: at
each turn `m` lies within a replacement that begins before it or with it, or none touches it. -/
def Unsplit (m : List α) : List (List γ) → List α → List α → Prop
  | [], _, _ => True
  | s :: ss, x, y =>
    m.length ≤ skipAfter key s 0 x (m ++ y) ∨ Separable key s x (m ++ y)
      ∧ (m.length ≤ s.length ∧ s <+: (m ++ y).map key
        ∨ Separable key s m y ∧ Unsplit m ss (replace key s mark x) (replace key s mark y))

variable {key s mark} {k : ℕ} {a : α} {t x y m : List α} {ss : List (List γ)}

/-! ## One pattern -/

@[simp] theorem replace_nil : replace key s mark [] = [] := rfl

theorem mem_replaceFrom (h : a ∈ replaceFrom key s mark k t) : a ∈ mark ∨ a ∈ t := by
  induction t generalizing k with
  | nil => simp [replaceFrom] at h
  | cons b t ih =>
    cases k with
    | succ k => exact (ih h).imp_right (List.mem_cons_of_mem b)
    | zero =>
      unfold replaceFrom at h
      split at h
      · rcases List.mem_append.mp h with h | h
        · exact .inl h
        · exact (ih h).imp_right (List.mem_cons_of_mem b)
      · rcases List.mem_cons.mp h with rfl | h
        · exact .inr List.mem_cons_self
        · exact (ih h).imp_right (List.mem_cons_of_mem b)

theorem mem_replace (h : a ∈ replace key s mark t) : a ∈ mark ∨ a ∈ t := mem_replaceFrom h

theorem replaceFrom_of_length_lt (h : t.length < s.length) :
    replaceFrom key s mark 0 t = t := by
  induction t with
  | nil => rfl
  | cons a t ih =>
    have hno : ¬ s <+: (a :: t).map key := fun hs ↦ by
      have hle := hs.length_le
      rw [List.length_map] at hle
      omega
    rw [replaceFrom, if_neg hno, ih (Nat.lt_of_succ_lt h)]

/-- A text no longer than the pattern stays, unless it is the pattern. -/
theorem replace_of_ne (hlen : t.length ≤ s.length) (hne : s ≠ t.map key) :
    replace key s mark t = t := by
  cases t with
  | nil => rfl
  | cons a t =>
    have hno : ¬ s <+: (a :: t).map key := fun hs ↦
      hne (hs.eq_of_length (Nat.le_antisymm hs.length_le (by rwa [List.length_map])))
    rw [replace, replaceFrom, if_neg hno, replaceFrom_of_length_lt (Nat.lt_of_succ_le (by simpa using hlen))]

theorem le_length_of_skipAfter (h : skipAfter key s k x y = 0) : k ≤ x.length := by
  induction x generalizing k with
  | nil => exact Nat.le_of_eq h
  | cons a x ih =>
    cases k with
    | zero => exact Nat.zero_le _
    | succ k => exact Nat.succ_le_succ (ih h)

theorem replaceFrom_append (h : skipAfter key s k x y = 0) : replaceFrom key s mark k (x ++ y)
    = replaceFrom key s mark k x ++ replaceFrom key s mark 0 y := by
  induction x generalizing k with
  | nil =>
    obtain rfl : k = 0 := h
    rfl
  | cons a x ih =>
    cases k with
    | succ k => exact ih h
    | zero =>
      unfold skipAfter at h
      rw [List.cons_append, replaceFrom, replaceFrom]
      split at h
      next hs =>
        -- the occurrence ends in `x`, since nothing of `y` is skipped
        have hle : s.length ≤ ((a :: x).map key).length := by
          have := le_length_of_skipAfter h
          simp only [List.length_map, List.length_cons]
          omega
        have hs' : s <+: (a :: x).map key := by
          rw [← List.cons_append, List.map_append] at hs
          exact List.prefix_of_prefix_length_le hs (List.prefix_append _ _) hle
        rw [if_pos hs, if_pos hs', ih h, List.append_assoc]
      next hs =>
        have hs' : ¬ s <+: (a :: x).map key := fun hs' ↦ hs (by
          rw [← List.cons_append, List.map_append]
          exact hs'.trans (List.prefix_append _ _))
        rw [if_neg hs, if_neg hs', ih h, List.cons_append]

theorem replace_append (h : Separable key s x y) :
    replace key s mark (x ++ y) = replace key s mark x ++ replace key s mark y :=
  replaceFrom_append h


/-- An occurrence of the pattern at the beginning can be cut off. -/
theorem separable_self (hs : s ≠ []) (y : List α) (hm : m.map key = s) :
    Separable key s m y := by
  subst hm
  cases m with
  | nil => simp at hs
  | cons a m =>
    have hpre : (a :: m).map key <+: (a :: (m ++ y)).map key := by
      rw [← List.cons_append, List.map_append]
      exact List.prefix_append _ _
    have hskip : ∀ x : List α, skipAfter key ((a :: m).map key) x.length x y = 0 := by
      intro x
      induction x with
      | nil => rfl
      | cons b x ih => exact ih
    rw [Separable, skipAfter, if_pos hpre]
    simpa using hskip m

theorem replace_self (hs : s ≠ []) (hm : m.map key = s) : replace key s mark m = mark := by
  subst hm
  cases m with
  | nil => simp at hs
  | cons a m =>
    have hskip : ∀ x : List α, replaceFrom key ((a :: m).map key) mark x.length x = [] := by
      intro x
      induction x with
      | nil => rfl
      | cons b x ih => exact ih
    rw [replace, replaceFrom, if_pos (List.prefix_refl _)]
    simpa using hskip m

theorem map_replaceFrom {key' : β → γ} {f : α → β} (hf : ∀ a, key' (f a) = key a) :
    (replaceFrom key s mark k t).map f = replaceFrom key' s (mark.map f) k (t.map f) := by
  induction t generalizing k with
  | nil => cases k <;> rfl
  | cons a t ih =>
    cases k with
    | succ k => exact ih
    | zero =>
      have hkeys : ((a :: t).map f).map key' = (a :: t).map key := by
        rw [List.map_map]
        exact List.map_congr_left fun b _ ↦ hf b
      rw [List.map_cons] at hkeys ⊢
      rw [replaceFrom, replaceFrom, hkeys]
      split
      · rw [List.map_append, ih]
      · rw [List.map_cons, ih]

/-! ## One pattern after another -/

@[simp] theorem redact_cons :
    redact key mark (s :: ss) t = redact key mark ss (replace key s mark t) := rfl

theorem mem_redact (h : a ∈ redact key mark ss t) : a ∈ mark ∨ a ∈ t := by
  induction ss generalizing t with
  | nil => exact .inr h
  | cons s ss ih => exact (ih h).elim .inl mem_replace

/-- What the replacements do does not depend on what `key` forgets. -/
theorem map_redact {key' : β → γ} {f : α → β} (hf : ∀ a, key' (f a) = key a) :
    (redact key mark ss t).map f = redact key' (mark.map f) ss (t.map f) := by
  induction ss generalizing t with
  | nil => rfl
  | cons s ss ih => rw [redact_cons, ih, replace, map_replaceFrom hf, redact_cons, replace]

theorem skipAfter_map {key' : β → γ} {f : α → β} (hf : ∀ a, key' (f a) = key a) (k : ℕ)
    (x y : List α) : skipAfter key' s k (x.map f) (y.map f) = skipAfter key s k x y := by
  induction x generalizing k with
  | nil => cases k <;> rfl
  | cons a x ih =>
    cases k with
    | succ k => exact ih k
    | zero =>
      have hkeys : (f a :: (x.map f ++ y.map f)).map key' = (a :: (x ++ y)).map key := by
        rw [← List.map_append, ← List.map_cons, List.map_map]
        exact List.map_congr_left fun b _ ↦ hf b
      rw [List.map_cons, skipAfter, skipAfter, hkeys, ih, ih]

theorem separable_map {key' : β → γ} {f : α → β} (hf : ∀ a, key' (f a) = key a) :
    Separable key' s (x.map f) (y.map f) ↔ Separable key s x y := by
  rw [Separable, Separable, skipAfter_map hf]

theorem unsplit_map {key' : β → γ} {f : α → β} (hf : ∀ a, key' (f a) = key a) :
    Unsplit key' (mark.map f) (m.map f) ss (x.map f) (y.map f) ↔ Unsplit key mark m ss x y := by
  induction ss generalizing x y with
  | nil => rfl
  | cons s ss ih =>
    have hkeys : ((m ++ y).map f).map key' = (m ++ y).map key := by
      rw [List.map_map]
      exact List.map_congr_left fun b _ ↦ hf b
    have hreplace : ∀ t : List α, replace key' s (mark.map f) (t.map f)
        = (replace key s mark t).map f := fun t ↦ (map_replaceFrom hf).symm
    rw [Unsplit, Unsplit, ← List.map_append, separable_map hf, separable_map hf, skipAfter_map hf,
      hkeys, hreplace, hreplace, ih, List.length_map]

theorem mem_replaceFrom_of_le (hle : m.length ≤ k)
    (h : a ∈ replaceFrom key s mark k (m ++ y)) : a ∈ mark ∨ a ∈ y := by
  induction m generalizing k with
  | nil => exact mem_replaceFrom h
  | cons b m ih =>
    cases k with
    | zero => simp at hle
    | succ k => exact ih (Nat.le_of_succ_le_succ hle) h

/-- Nothing is left of a part that lies within a replacement. -/
theorem mem_replaceFrom_of_covered (hle : m.length ≤ skipAfter key s k x (m ++ y))
    (h : a ∈ replaceFrom key s mark k (x ++ (m ++ y))) : a ∈ mark ∨ a ∈ x ∨ a ∈ y := by
  induction x generalizing k with
  | nil => exact (mem_replaceFrom_of_le hle h).imp_right .inr
  | cons b x ih =>
    cases k with
    | succ k =>
      exact (ih hle h).imp_right fun h ↦ h.imp_left (List.mem_cons_of_mem b)
    | zero =>
      rw [List.cons_append, replaceFrom] at h
      rw [skipAfter] at hle
      split at h
      next hs =>
        rw [if_pos hs] at hle
        rcases List.mem_append.mp h with h | h
        · exact .inl h
        · exact (ih hle h).imp_right fun h ↦ h.imp_left (List.mem_cons_of_mem b)
      next hs =>
        rw [if_neg hs] at hle
        rcases List.mem_cons.mp h with rfl | h
        · exact .inr (.inl List.mem_cons_self)
        · exact (ih hle h).imp_right fun h ↦ h.imp_left (List.mem_cons_of_mem b)

theorem mem_replace_of_begins (hne : m ≠ []) (hle : m.length ≤ s.length)
    (hs : s <+: (m ++ y).map key) (h : a ∈ replace key s mark (m ++ y)) : a ∈ mark ∨ a ∈ y := by
  cases m with
  | nil => exact absurd rfl hne
  | cons b m =>
    rw [List.cons_append] at hs h
    rw [replace, replaceFrom, if_pos hs] at h
    rcases List.mem_append.mp h with h | h
    · exact .inl h
    · refine mem_replaceFrom_of_le ?_ h
      rw [List.length_cons] at hle
      omega

/-- With the patterns in the order of their lengths, the longest first, nothing is left of a part
that reads as one of them and is not split. -/
theorem mem_redact_of_unsplit (hsorted : ss.Pairwise fun s s' ↦ s'.length ≤ s.length)
    (hne : m ≠ []) (hm : m.map key ∈ ss) (h : Unsplit key mark m ss x y)
    (ha : a ∈ redact key mark ss (x ++ (m ++ y))) : a ∈ mark ∨ a ∈ x ∨ a ∈ y := by
  induction ss generalizing x y with
  | nil => simp at hm
  | cons s ss ih =>
    rw [redact_cons] at ha
    rcases h with hcovered | ⟨hleft, hbegins | ⟨hright, hlater⟩⟩
    · exact (mem_redact ha).elim .inl fun ha ↦ mem_replaceFrom_of_covered hcovered ha
    · rw [replace_append hleft] at ha
      refine (mem_redact ha).elim .inl fun ha ↦ ?_
      rcases List.mem_append.mp ha with ha | ha
      · exact (mem_replace ha).imp_right .inl
      · exact (mem_replace_of_begins hne hbegins.1 hbegins.2 ha).imp_right .inr
    · rw [replace_append hleft, replace_append hright] at ha
      by_cases hs : s = m.map key
      · rw [replace_self (by simpa [hs] using hne) hs.symm] at ha
        refine (mem_redact ha).elim .inl fun ha ↦ ?_
        rcases List.mem_append.mp ha with ha | ha
        · exact (mem_replace ha).imp_right .inl
        · exact (List.mem_append.mp ha).elim .inl fun ha ↦ (mem_replace ha).imp_right .inr
      · have hm' : m.map key ∈ ss := (List.mem_cons.mp hm).resolve_left (Ne.symm hs)
        have hlen : m.length ≤ s.length := by
          rw [List.pairwise_cons] at hsorted
          simpa using hsorted.1 _ hm'
        rw [replace_of_ne hlen hs] at ha
        exact (ih (List.pairwise_cons.mp hsorted).2 hm' hlater ha).elim .inl fun h ↦
          h.elim (fun h ↦ (mem_replace h).imp_right .inl) fun h ↦ (mem_replace h).imp_right .inr

end Text
