import Heimdall.Text.Replace

/-!
# What replacements leave of their patterns

The mark stands between two delimiters. A pattern that has neither of them and is not found between
them (`Outside`) is never found across the border of a mark, so that the occurrences in a text with
marks are those in what is left of it: replacements cannot make an occurrence, and none is left of
a pattern once it was replaced (`not_infix_redact`), in whatever order the patterns are taken.

`Redacted` relates a text to one in which disjoint occurrences of patterns are replaced and all
other symbols kept in order; replacing one pattern after another stays within it
(`redacted_redact`).
-/

namespace Text

variable {α γ : Type} [DecidableEq γ] {key : α → γ} {mark : List α} {lo hi : γ} {inner s : List γ}
  {t u : List α} {ss : List (List γ)}

variable (key mark) in
/-- `u` is `t` with disjoint occurrences of patterns in `ss` replaced. -/
inductive Redacted (ss : List (List γ)) : List α → List α → Prop
  | nil : Redacted ss [] []
  | keep (a : α) {t u : List α} (rest : Redacted ss t u) : Redacted ss (a :: t) (a :: u)
  | cover (m : List α) {t u : List α} (hm : m.map key ∈ ss) (rest : Redacted ss t u) :
    Redacted ss (m ++ t) (mark ++ u)

/-- A pattern of which no occurrence touches a mark that reads as `inner` between `lo` and `hi`. -/
structure Outside (lo hi : γ) (inner s : List γ) : Prop where
  nonempty : s ≠ []
  lo_notMem : lo ∉ s
  hi_notMem : hi ∉ s
  notInside : ¬ s <:+: inner

/-! ## One pattern -/

variable (key mark) in
/-- Induction along the replacements of a pattern. -/
theorem replace_induction {motive : List α → List α → Prop} (hs : s ≠ []) (nil : motive [] [])
    (keep : ∀ a t, ¬ s <+: (a :: t).map key → motive t (replace key s mark t) →
      motive (a :: t) (a :: replace key s mark t))
    (cover : ∀ m t, m.map key = s → motive t (replace key s mark t) →
      motive (m ++ t) (mark ++ replace key s mark t))
    (t : List α) : motive t (replace key s mark t) := by
  induction hlen : t.length using Nat.strong_induction_on generalizing t with
  | _ n ih =>
    subst hlen
    cases t with
    | nil => exact nil
    | cons a t =>
      by_cases hpre : s <+: (a :: t).map key
      · obtain ⟨m, rest, hm, hmap⟩ : ∃ m rest, m ++ rest = a :: t ∧ m.map key = s := by
          obtain ⟨z, hz⟩ := hpre
          obtain ⟨m, rest, hsplit, hm, -⟩ := List.map_eq_append_iff.mp hz.symm
          exact ⟨m, rest, hsplit.symm, hm⟩
        have hne : m ≠ [] := fun h ↦ hs (by rw [← hmap, h, List.map_nil])
        rw [← hm, replace_append (separable_self hs rest hmap), replace_self hs hmap]
        refine cover m rest hmap (ih rest.length ?_ rest rfl)
        rw [← hm, List.length_append]
        have := List.length_pos_iff.mpr hne
        omega
      · have hstep : replace key s mark (a :: t) = a :: replace key s mark t := by
          rw [replace, replaceFrom, if_neg hpre, replace]
        rw [hstep]
        exact keep a t hpre (ih t.length (Nat.lt_succ_self _) t rfl)

/-- A mark of one symbol that does not occur in the text is replaced by the pattern again. -/
theorem replace_replace [DecidableEq α] {s t : List α} {x : α} (hs : s ≠ []) (hx : x ∉ t) :
    replace id [x] s (replace id s [x] t) = t := by
  revert hx
  refine replace_induction id [x] (motive := fun t u ↦ x ∉ t → replace id [x] s u = t) hs ?_ ?_ ?_ t
  · exact fun _ ↦ rfl
  · intro a t _ ih hx
    rw [List.mem_cons, not_or] at hx
    have hno : ¬ [x] <+: (a :: replace id s [x] t).map id := by
      rintro ⟨rest, hrest⟩
      exact hx.1 (List.cons.inj hrest).1
    rw [replace, replaceFrom, if_neg hno, ← replace, ih hx.2]
  · intro m t hm ih hx
    rw [List.map_id] at hm
    rw [replace_append (separable_self (List.cons_ne_nil x []) _ (List.map_id _)),
      replace_self (List.cons_ne_nil x []) (List.map_id _),
      ih fun h ↦ hx (List.mem_append_right m h), hm]

theorem length_replace_le (hs : s ≠ []) (hmark : mark.length ≤ s.length) (t : List α) :
    (replace key s mark t).length ≤ t.length := by
  refine replace_induction key mark (motive := fun t u ↦ u.length ≤ t.length) hs ?_ ?_ ?_ t
  · exact Nat.le_refl 0
  · intro a t _ ih
    exact Nat.succ_le_succ ih
  · intro m t hm ih
    have hlength : m.length = s.length := by rw [← hm, List.length_map]
    rw [List.length_append, List.length_append]
    omega

namespace Outside

variable (h : Outside lo hi inner s)

include h
omit [DecidableEq γ]

/-- No occurrence begins between the delimiters. -/
theorem not_prefix {x z : List γ} (hx : x <:+ inner) : ¬ s <+: x ++ hi :: z := by
  intro hpre
  by_cases hlen : s.length ≤ x.length
  · have hs : s <+: x := List.prefix_of_prefix_length_le hpre (List.prefix_append _ _) hlen
    exact h.notInside (hs.isInfix.trans hx.isInfix)
  · have hend : x ++ [hi] <+: x ++ hi :: z := by
      have hprefix := List.prefix_append (x ++ [hi]) z
      rwa [List.append_assoc, List.singleton_append] at hprefix
    have hs : x ++ [hi] <+: s := List.prefix_of_prefix_length_le hend hpre (by simp; omega)
    exact h.hi_notMem (hs.subset (by simp))

theorem infix_of_interior {x z : List γ} (hx : x <:+ inner) (hocc : s <:+: x ++ hi :: z) :
    s <:+: z := by
  induction x with
  | nil =>
    rcases List.infix_cons_iff.mp hocc with hpre | hocc
    · exact absurd hpre (h.not_prefix (x := []) (List.nil_suffix))
    · exact hocc
  | cons c x ih =>
    rcases List.infix_cons_iff.mp hocc with hpre | hocc
    · exact absurd hpre (h.not_prefix hx)
    · exact ih ((List.suffix_cons c x).trans hx) hocc

/-- An occurrence after a mark begins after it. -/
theorem infix_of_mark {z : List γ} (hocc : s <:+: lo :: (inner ++ hi :: z)) : s <:+: z := by
  rcases List.infix_cons_iff.mp hocc with hpre | hocc
  · have hmem : lo ∈ s := by
      obtain ⟨c, s', rfl⟩ := List.exists_cons_of_ne_nil h.nonempty
      rw [(List.cons_prefix_cons.mp hpre).1]
      exact List.mem_cons_self
    exact absurd hmem h.lo_notMem
  · exact h.infix_of_interior (List.suffix_refl _) hocc

end Outside

section Mark

variable (hmark : mark.map key = lo :: (inner ++ [hi]))

include hmark

omit [DecidableEq γ] in
theorem map_mark_append (u : List α) :
    (mark ++ u).map key = lo :: (inner ++ hi :: u.map key) := by
  rw [List.map_append, hmark, List.cons_append, List.append_assoc, List.singleton_append]

/-- What a text begins with and has no delimiter was there before the replacements. -/
theorem prefix_of_prefix_replace {s' : List γ} (hs : s ≠ []) (hlo : lo ∉ s')
    (hpre : s' <+: (replace key s mark t).map key) : s' <+: t.map key := by
  refine replace_induction key mark
    (motive := fun t u ↦ ∀ s', lo ∉ s' → s' <+: u.map key → s' <+: t.map key) hs ?_ ?_ ?_ t s'
    hlo hpre
  · exact fun _ _ h ↦ h
  · intro a t _ ih s' hlo hpre
    cases s' with
    | nil => exact List.nil_prefix
    | cons c s' =>
      obtain ⟨hc, hpre⟩ := List.cons_prefix_cons.mp hpre
      exact List.cons_prefix_cons.mpr ⟨hc, ih s' (List.not_mem_of_not_mem_cons hlo) hpre⟩
  · intro m t _ _ s' hlo hpre
    rw [map_mark_append hmark] at hpre
    cases s' with
    | nil => exact List.nil_prefix
    | cons c s' =>
      rw [(List.cons_prefix_cons.mp hpre).1] at hlo
      exact absurd List.mem_cons_self hlo

/-- Replacing a pattern makes no occurrence of another one, and leaves none of its own. -/
theorem Outside.not_infix_replace {s' : List γ} (hs : s ≠ []) (h : Outside lo hi inner s')
    (habsent : s' = s ∨ ¬ s' <:+: t.map key) : ¬ s' <:+: (replace key s mark t).map key := by
  refine replace_induction key mark
    (motive := fun t u ↦ (s' = s ∨ ¬ s' <:+: t.map key) → ¬ s' <:+: u.map key) hs ?_ ?_ ?_ t habsent
  · intro _ hocc
    exact h.nonempty (List.eq_nil_of_infix_nil hocc)
  · intro a t hno ih habsent hocc
    rw [List.map_cons] at hocc
    rcases List.infix_cons_iff.mp hocc with hpre | hocc
    · have hstep : replace key s mark (a :: t) = a :: replace key s mark t := by
        rw [replace, replaceFrom, if_neg hno, replace]
      have hpre' : s' <+: (a :: t).map key := by
        refine prefix_of_prefix_replace hmark hs h.lo_notMem ?_
        rwa [hstep]
      rcases habsent with rfl | habsent
      · exact hno hpre'
      · exact habsent hpre'.isInfix
    · refine ih (habsent.imp_right fun habsent hocc ↦ habsent ?_) hocc
      exact List.infix_cons hocc
  · intro m t _ ih habsent hocc
    rw [map_mark_append hmark] at hocc
    refine ih (habsent.imp_right fun habsent hocc ↦ habsent ?_) (h.infix_of_mark hocc)
    rw [List.map_append]
    exact hocc.trans (List.suffix_append _ _).isInfix

/-- A mark stays as it is, and what follows it is replaced by itself. -/
theorem replace_mark_append (h : Outside lo hi inner s) (u : List α) :
    replace key s mark (mark ++ u) = mark ++ replace key s mark u := by
  have hinterior : ∀ x : List α, (∃ y : List γ, x.map key = y ++ [hi] ∧ y <:+ inner) →
      replace key s mark (x ++ u) = x ++ replace key s mark u := by
    intro x hx
    induction x with
    | nil =>
      obtain ⟨y, hy, -⟩ := hx
      simp at hy
    | cons a x ih =>
      obtain ⟨y, hy, hsuffix⟩ := hx
      have hno : ¬ s <+: (a :: (x ++ u)).map key := by
        rw [← List.cons_append, List.map_append, hy, List.append_assoc]
        exact h.not_prefix hsuffix
      have hrest : replace key s mark (x ++ u) = x ++ replace key s mark u := by
        cases y with
        | nil =>
          obtain rfl : x = [] := by simpa using (List.cons.inj hy).2
          rfl
        | cons c y => exact ih ⟨y, (List.cons.inj hy).2, (List.suffix_cons c y).trans hsuffix⟩
      rw [List.cons_append, replace, replaceFrom, if_neg hno, ← replace, hrest, List.cons_append]
  obtain ⟨a, x, rfl⟩ : ∃ a x, mark = a :: x := by
    cases mark with
    | nil => simp at hmark
    | cons a x => exact ⟨a, x, rfl⟩
  obtain ⟨ha, hx⟩ := List.cons.inj hmark
  have hno : ¬ s <+: (a :: (x ++ u)).map key := by
    intro hpre
    obtain ⟨c, s', rfl⟩ := List.exists_cons_of_ne_nil h.nonempty
    have hc : c = key a := (List.cons_prefix_cons.mp hpre).1
    rw [ha] at hc
    exact h.lo_notMem (hc ▸ List.mem_cons_self)
  rw [List.cons_append, replace, replaceFrom, if_neg hno, ← replace,
    hinterior x ⟨inner, hx, List.suffix_refl _⟩, List.cons_append]

namespace Redacted

omit hmark [DecidableEq γ] in
theorem refl (t : List α) : Redacted key mark ss t t := by
  induction t with
  | nil => exact .nil
  | cons a t ih => exact .keep a ih

omit [DecidableEq γ] in
/-- What a redacted text begins with and has no delimiter is kept from the text. -/
theorem cut {m : List α} (h : Redacted key mark ss t (m ++ u)) (hlo : lo ∉ m.map key) :
    ∃ t', t = m ++ t' ∧ Redacted key mark ss t' u := by
  induction m generalizing t with
  | nil => exact ⟨t, rfl, h⟩
  | cons a m ih =>
    rw [List.cons_append] at h
    generalize hv : a :: (m ++ u) = v at h
    cases h with
    | nil => cases hv
    | keep b rest =>
      obtain ⟨rfl, rfl⟩ := List.cons.inj hv
      obtain ⟨t', rfl, h'⟩ := ih rest (List.not_mem_of_not_mem_cons hlo)
      exact ⟨t', rfl, h'⟩
    | cover m' hm rest =>
      have hkeys := congrArg (List.map key) hv
      rw [map_mark_append hmark, List.map_cons] at hkeys
      rw [List.map_cons, (List.cons.inj hkeys).1] at hlo
      exact absurd List.mem_cons_self hlo

/-- Another replacement stays within what is left of the text. -/
theorem replace (h : Redacted key mark ss t u) (hs : s ∈ ss) (hout : Outside lo hi inner s) :
    Redacted key mark ss t (replace key s mark u) := by
  induction hlen : u.length using Nat.strong_induction_on generalizing t u with
  | _ n ih =>
    subst hlen
    have hmarkPos : 0 < mark.length := by
      have := congrArg List.length hmark
      simp only [List.length_map, List.length_cons] at this
      omega
    cases h with
    | nil => exact .nil
    | cover m hm rest =>
      rw [replace_mark_append hmark hout]
      refine .cover m hm (ih _ ?_ rest rfl)
      rw [List.length_append]
      omega
    | @keep a t u rest =>
      by_cases hpre : s <+: (a :: u).map key
      · obtain ⟨z, hz⟩ := hpre
        obtain ⟨m, u', hsplit, hm, -⟩ := List.map_eq_append_iff.mp hz.symm
        have hwhole : Redacted key mark ss (a :: t) (m ++ u') := hsplit ▸ .keep a rest
        obtain ⟨t', ht', hrest⟩ := hwhole.cut hmark (hm ▸ hout.lo_notMem)
        have hne : m ≠ [] := fun h ↦ hout.nonempty (by rw [← hm, h, List.map_nil])
        rw [hsplit, ht', replace_append (separable_self hout.nonempty u' hm),
          replace_self hout.nonempty hm]
        refine .cover m (hm ▸ hs) (ih _ ?_ hrest rfl)
        rw [hsplit, List.length_append]
        have := List.length_pos_iff.mpr hne
        omega
      · have hstep : Text.replace key s mark (a :: u) = a :: Text.replace key s mark u := by
          rw [Text.replace, replaceFrom, if_neg hpre, Text.replace]
        rw [hstep]
        exact .keep a (ih u.length (Nat.lt_succ_self _) rest rfl)

end Redacted

/-! ## One pattern after another -/

/-- A pattern without occurrences gets none. -/
theorem Outside.not_infix_redact (hss : ∀ s ∈ ss, s ≠ []) {s' : List γ}
    (h : Outside lo hi inner s') (habsent : ¬ s' <:+: t.map key) :
    ¬ s' <:+: (redact key mark ss t).map key := by
  induction ss generalizing t with
  | nil => exact habsent
  | cons s ss ih =>
    rw [redact_cons]
    exact ih (fun s hs ↦ hss s (List.mem_cons_of_mem _ hs))
      (h.not_infix_replace hmark (hss s List.mem_cons_self) (.inr habsent))

/-- **No pattern is left**, whatever the order in which they are replaced. -/
theorem not_infix_redact (hss : ∀ s ∈ ss, Outside lo hi inner s) :
    ∀ s ∈ ss, ¬ s <:+: (redact key mark ss t).map key := by
  induction ss generalizing t with
  | nil => simp
  | cons s ss ih =>
    intro s' hs'
    have hfirst := hss s List.mem_cons_self
    have hothers : ∀ s ∈ ss, Outside lo hi inner s := fun s hs ↦ hss s (List.mem_cons_of_mem _ hs)
    rw [redact_cons]
    rcases List.mem_cons.mp hs' with rfl | hs'
    · have habsent := hfirst.not_infix_replace hmark (t := t) hfirst.nonempty (.inl rfl)
      exact hfirst.not_infix_redact hmark (fun s hs ↦ (hothers s hs).nonempty) habsent
    · exact ih hothers s' hs'

/-- **The outcome is the text with disjoint occurrences replaced.** -/
theorem redacted_redact (hss : ∀ s ∈ ss, Outside lo hi inner s) (t : List α) :
    Redacted key mark ss t (redact key mark ss t) := by
  have hpart : ∀ ss', ss' ⊆ ss → ∀ u, Redacted key mark ss t u →
      Redacted key mark ss t (redact key mark ss' u) := by
    intro ss' hsub
    induction ss' with
    | nil => exact fun _ h ↦ h
    | cons s ss' ih =>
      intro u h
      have hs : s ∈ ss := hsub List.mem_cons_self
      rw [redact_cons]
      exact ih (List.subset_of_cons_subset hsub) _ (h.replace hmark hs (hss s hs))
  exact hpart ss (List.Subset.refl ss) t (.refl t)

end Mark

end Text
