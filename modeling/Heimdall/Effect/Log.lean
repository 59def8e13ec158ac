import Mathlib

/-!
# Reading a growing log

A log is a list of entries with increasing numbers that grows at the end. A reader keeps the number
of the last entry it has taken and asks for what comes after it (`entriesAfter`). What it has taken
is then always a beginning of what it was opened for, and an answer that is empty says that it has
taken everything there is.
-/

namespace Heimdall

variable {ε : Type} {num : ε → ℕ} {log xs ys : List ε} {n : ℕ} {e : ε}

/-- The entries with a number above `n`. -/
def entriesAfter (num : ε → ℕ) (log : List ε) (n : ℕ) : List ε := log.filter fun e ↦ n < num e

/-- The numbers of the log increase. -/
def Increasing (num : ε → ℕ) (log : List ε) : Prop := log.Pairwise (num · < num ·)

/-- Where a reader opened at `n` is after it has taken `xs`. -/
def cursorAfter (num : ε → ℕ) (n : ℕ) (xs : List ε) : ℕ := (xs.getLast?.map num).getD n

@[simp] theorem cursorAfter_nil : cursorAfter num n [] = n := rfl

@[simp] theorem cursorAfter_append (num : ε → ℕ) (n : ℕ) (xs : List ε) (e : ε) :
    cursorAfter num n (xs ++ [e]) = num e := by
  simp [cursorAfter]

theorem mem_entriesAfter : e ∈ entriesAfter num log n ↔ e ∈ log ∧ n < num e := by
  simp [entriesAfter]

theorem Increasing.entriesAfter (h : Increasing num log) (n : ℕ) :
    Increasing num (entriesAfter num log n) :=
  h.filter _

/-- The log grows at the end, and so does what a reader is opened for. -/
theorem entriesAfter_append : entriesAfter num (log ++ ys) n
    = entriesAfter num log n ++ entriesAfter num ys n :=
  List.filter_append log ys

/-- What is left for a reader that has taken `xs` is what comes after its cursor. -/
theorem entriesAfter_cursor (h : Increasing num log) (hsplit : entriesAfter num log n = xs ++ ys) :
    entriesAfter num log (cursorAfter num n xs) = ys := by
  rcases List.eq_nil_or_concat xs with rfl | ⟨taken, last, rfl⟩
  · exact hsplit
  · rw [List.concat_eq_append] at hsplit ⊢
    have hlast : n < num last := by
      have hmem : last ∈ entriesAfter num log n := by simp [hsplit]
      exact (mem_entriesAfter.mp hmem).2
    have hincreasing := h.entriesAfter n
    rw [hsplit, Increasing, List.pairwise_append, List.pairwise_append] at hincreasing
    obtain ⟨⟨-, -, htaken⟩, -, hrest⟩ := hincreasing
    calc entriesAfter num log (cursorAfter num n (taken ++ [last]))
        = (entriesAfter num log n).filter (fun e ↦ num last < num e) := by
          rw [cursorAfter_append, entriesAfter, entriesAfter, List.filter_filter]
          refine List.filter_congr fun e _ ↦ ?_
          simp only [← Bool.decide_and, decide_eq_decide]
          omega
      _ = ys := by
          rw [hsplit, List.filter_append, List.filter_eq_nil_iff.mpr, List.nil_append,
            List.filter_eq_self]
          · intro e he
            simpa using hrest last (by simp) e he
          · intro e he
            rcases List.mem_append.mp he with he | he
            · have hlt := htaken e he last (List.mem_singleton_self _)
              simpa using hlt.le
            · obtain rfl := List.mem_singleton.mp he
              simp

end Heimdall
