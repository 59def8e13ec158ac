import Mathlib

/-!
# Relative paths

A path as Python's `PurePosixPath` reads it: the parts between the slashes, without empty parts and
without single dots. The text of a canonical path is read back as its parts (`parts_asPosix`).
-/

namespace PosixPath

/-- A part of a canonical relative path. -/
def IsPart (part : String) : Prop := part ≠ "" ∧ part ≠ "." ∧ part ≠ ".." ∧ '/' ∉ part.toList

instance (part : String) : Decidable (IsPart part) := inferInstanceAs (Decidable (_ ∧ _ ∧ _ ∧ _))

def isAbsolute (value : String) : Bool := value.toList.head? == some '/'

def parts (value : String) : List String :=
  ((value.toList.splitOn '/').map String.ofList).filter fun part ↦ part != "" && part != "."

def asPosix (parts : List String) : String := "/".intercalate parts

variable {ps : List String} {part : String}

theorem parts_asPosix (h : ∀ part ∈ ps, IsPart part) (hne : ps ≠ []) : parts (asPosix ps) = ps := by
  have hsplit : (asPosix ps).toList.splitOn '/' = ps.map String.toList := by
    rw [asPosix, String.toList_intercalate]
    refine List.splitOn_intercalate '/' (fun cs hcs ↦ ?_) (by simpa using hne)
    obtain ⟨part, hpart, rfl⟩ := List.mem_map.mp hcs
    exact (h part hpart).2.2.2
  rw [parts, hsplit, List.map_map, show String.ofList ∘ String.toList = id from
    funext fun _ ↦ String.ofList_toList, List.map_id, List.filter_eq_self]
  intro part hpart
  obtain ⟨hempty, hdot, -⟩ := h part hpart
  simp [hempty, hdot]

theorem isAbsolute_asPosix (h : ∀ part ∈ ps, IsPart part) : isAbsolute (asPosix ps) = false := by
  cases ps with
  | nil => rfl
  | cons part ps =>
    obtain ⟨hempty, -, -, hslash⟩ := h part List.mem_cons_self
    obtain ⟨c, cs, hcs⟩ := List.exists_cons_of_ne_nil (String.toList_eq_nil_iff.not.mpr hempty)
    have hc : c ≠ '/' := fun heq ↦ hslash (by rw [hcs, heq]; exact List.mem_cons_self)
    have hhead : (asPosix (part :: ps)).toList.head? = some c := by
      rw [asPosix, String.toList_intercalate]
      cases ps with
      | nil => simp [hcs]
      | cons _ _ => simp [List.intercalate, hcs]
    simp [isAbsolute, hhead, hc]

end PosixPath
