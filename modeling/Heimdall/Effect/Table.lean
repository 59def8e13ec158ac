import Mathlib

/-!
# Tables

A table with a primary key is an association list. What a write leaves under a key, and what an
ordered selection finds.
-/

namespace Heimdall

variable {κ β : Type} [DecidableEq κ]

theorem lookup_insert' (t : AList fun _ : κ ↦ β) (p : κ) (b : β) (q : κ) :
    (t.insert p b).lookup q = if q = p then some b else t.lookup q := by
  split_ifs with h
  · subst h
    exact AList.lookup_insert t
  · exact AList.lookup_insert_ne h

/-- A row that is not written stays what it was. -/
theorem lookup_self {t : AList fun _ : κ ↦ β} {p : κ} {b : β} (h : t.lookup p = some b) (q : κ) :
    t.lookup q = if q = p then some b else t.lookup q := by
  split_ifs with hq
  · rw [hq, h]
  · rfl

/-- Delete the rows under these keys. -/
def eraseWhere (t : AList fun _ : κ ↦ β) (gone : κ → Bool) : AList fun _ : κ ↦ β where
  entries := t.entries.filter fun e ↦ !gone e.1
  nodupKeys := t.nodupKeys.sublist List.filter_sublist

theorem lookup_eraseWhere (t : AList fun _ : κ ↦ β) (gone : κ → Bool) (k : κ) :
    (eraseWhere t gone).lookup k = if gone k then none else t.lookup k := by
  ext b
  have hmem : b ∈ (eraseWhere t gone).lookup k ↔ b ∈ t.lookup k ∧ gone k = false := by
    rw [AList.mem_lookup_iff, AList.mem_lookup_iff, eraseWhere, List.mem_filter]
    simp
  rw [← Option.mem_def, hmem, ← Option.mem_def]
  split_ifs with hgone
  · simp [hgone]
  · simp [hgone]

/-- A row that an ordered selection returns is in the table and meets the condition. -/
theorem lookup_of_first {t : AList fun _ : κ ↦ β} {cond : (Sigma fun _ : κ ↦ β) → Bool}
    {before : κ × β → κ × β → Prop} [DecidableRel before] {k : κ} {b : β}
    (h : (((t.entries.filter cond).map fun e ↦ (e.1, e.2)).insertionSort before).head?
      = some (k, b)) : t.lookup k = some b ∧ cond ⟨k, b⟩ = true := by
  have hmem := List.mem_of_mem_head? h
  rw [List.mem_insertionSort, List.mem_map] at hmem
  obtain ⟨entry, hentry, heq⟩ := hmem
  cases heq
  obtain ⟨hentry, hcond⟩ := List.mem_filter.mp hentry
  exact ⟨AList.mem_lookup_iff.mpr hentry, hcond⟩

end Heimdall
