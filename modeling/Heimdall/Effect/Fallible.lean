import Mathlib

/-!
# Fallible computations

A transaction is a value of `Except`: an exception, or a result. Two ways to reason about one built
from smaller ones: backwards from a result that was returned (`bind_eq_ok`, `map_eq_ok`), and
forwards with a postcondition for the result and one for the exception (`Ensures`).
-/

namespace Heimdall

variable {ε α β : Type} {x : Except ε α}

theorem bind_eq_ok {f : α → Except ε β} {b : β} (h : x >>= f = .ok b) :
    ∃ a, x = .ok a ∧ f a = .ok b := by
  cases x with
  | error e => simp [bind, Except.bind] at h
  | ok a => exact ⟨a, rfl, h⟩

theorem map_eq_ok {f : α → β} {b : β} (h : x.map f = .ok b) : ∃ a, x = .ok a ∧ f a = b := by
  cases x with
  | error e => simp [Except.map] at h
  | ok a => exact ⟨a, rfl, by simpa [Except.map] using h⟩

theorem ok_ne {a : α} {e : ε} : (.ok a : Except ε α) ≠ .error e := nofun

theorem bind_ne {f : α → Except ε β} {e : ε} (hx : x ≠ .error e) (hf : ∀ a, f a ≠ .error e) :
    x >>= f ≠ .error e := by
  cases x with
  | ok a => exact hf a
  | error e' => exact fun h ↦ hx (by rw [Except.error.inj h])

/-- The results of a loop, each with what it came from. -/
theorem mapM_eq_ok {f : α → Except ε β} {as : List α} {bs : List β} (h : as.mapM f = .ok bs) :
    List.Forall₂ (fun a b ↦ f a = .ok b) as bs := by
  induction as generalizing bs with
  | nil =>
    cases h
    exact .nil
  | cons a as ih =>
    rw [List.mapM_cons] at h
    obtain ⟨b, hb, h⟩ := bind_eq_ok h
    obtain ⟨bs, hbs, h⟩ := bind_eq_ok h
    obtain rfl := Except.ok.inj h
    exact .cons hb (ih hbs)

/-- What stands on the right of two lists that agree came from something on the left. -/
theorem exists_of_mem_right {R : α → β → Prop} {as : List α} {bs : List β}
    (h : List.Forall₂ R as bs) {b : β} (hb : b ∈ bs) : ∃ a ∈ as, R a b := by
  induction h with
  | nil => exact absurd hb List.not_mem_nil
  | @cons a b' as bs hab _ ih =>
    rcases List.mem_cons.mp hb with rfl | hb
    · exact ⟨a, List.mem_cons_self, hab⟩
    · obtain ⟨a', ha', hr⟩ := ih hb
      exact ⟨a', List.mem_cons_of_mem a ha', hr⟩

theorem map_ne {f : α → β} {e : ε} (hx : x ≠ .error e) : x.map f ≠ .error e := by
  cases x with
  | ok a => exact ok_ne
  | error e' => exact fun h ↦ hx (by rw [Except.error.inj h])

/-- The computation returns a result in `post`, or raises an exception in `fault`. -/
def Ensures (x : Except ε α) (post : α → Prop) (fault : ε → Prop) : Prop :=
  match x with
  | .ok a => post a
  | .error e => fault e

variable {post post' : α → Prop} {fault fault' : ε → Prop}

@[simp] theorem ensures_ok {a : α} : Ensures (.ok a : Except ε α) post fault ↔ post a := Iff.rfl

@[simp] theorem ensures_error {e : ε} : Ensures (.error e : Except ε α) post fault ↔ fault e :=
  Iff.rfl

namespace Ensures

theorem of_ok (h : Ensures x post fault) {a : α} (hx : x = .ok a) : post a := by
  rw [hx] at h
  exact h

theorem of_error (h : Ensures x post fault) {e : ε} (hx : x = .error e) : fault e := by
  rw [hx] at h
  exact h

theorem mono (h : Ensures x post fault) (hpost : ∀ a, post a → post' a)
    (hfault : ∀ e, fault e → fault' e) : Ensures x post' fault' := by
  cases x with
  | ok a => exact hpost a h
  | error e => exact hfault e h

/-- Do one thing after another: the first may raise only what the whole may. -/
theorem bind {f : α → Except ε β} {goal : β → Prop} (h : Ensures x post fault)
    (hf : ∀ a, post a → Ensures (f a) goal fault) : Ensures (x >>= f) goal fault := by
  cases x with
  | ok a => exact hf a h
  | error e => exact h

theorem map {f : α → β} {goal : β → Prop} (h : Ensures x post fault)
    (hf : ∀ a, post a → goal (f a)) : Ensures (x.map f) goal fault := by
  cases x with
  | ok a => exact hf a h
  | error e => exact h

theorem mapM {f : α → Except ε β} {xs : List α} {goal : β → Prop}
    (h : ∀ a ∈ xs, Ensures (f a) goal fault) :
    Ensures (xs.mapM f) (fun bs ↦ ∀ b ∈ bs, goal b) fault := by
  induction xs with
  | nil => exact fun b hb ↦ absurd hb List.not_mem_nil
  | cons a xs ih =>
    rw [List.forall_mem_cons] at h
    rw [List.mapM_cons]
    refine h.1.bind fun b hb ↦ (ih h.2).bind fun bs hbs ↦ ?_
    exact List.forall_mem_cons.mpr ⟨hb, hbs⟩

end Ensures

end Heimdall
