import Mathlib

/-!
# Effectful programs with exceptions

A program over an interface is a tree: it returns a value, raises an exception, or calls one
operation and continues with whatever comes back — an answer or an exception. Nothing is said about
what an operation does; that is left to the environment a program is run in, so one tree is read
under many meanings (every answer possible, a faithful world, a world that may crash).

## One primitive

`handle p f` runs `p` and hands its outcome, normal or exceptional, to `f`. Sequencing, `except`
clauses and `finally` clauses are all instances of it, which is why every law below comes from the
one law for `handle`.

## Structural predicates

`Uses P p` says that every operation that can occur anywhere in the tree satisfies `P`, and
`Performs P p` that no run returns without an operation that satisfies `P` and succeeds. Both are
proved along the text of a program and never mention a state.
-/

namespace Effect

/-- A program over operations `Op` with answers `Ans`, exceptions `Exc` and result `α`. -/
inductive Prog (Op : Type) (Ans : Op → Type) (Exc : Type) (α : Type) where
  /-- Return a value. -/
  | pure (a : α)
  /-- Raise an exception. -/
  | raise (x : Exc)
  /-- Call an operation and continue with its answer or with the exception it raised. -/
  | call (o : Op) (k : Except Exc (Ans o) → Prog Op Ans Exc α)

namespace Prog

variable {Op : Type} {Ans : Op → Type} {Exc : Type} {α β γ : Type}

/-- The program that has already ended in an outcome. -/
def ofExcept : Except Exc α → Prog Op Ans Exc α
  | .ok a => .pure a
  | .error x => .raise x

/-- Run a program and hand its outcome to `f`. -/
def handle : Prog Op Ans Exc α → (Except Exc α → Prog Op Ans Exc β) → Prog Op Ans Exc β
  | .pure a, f => f (.ok a)
  | .raise x, f => f (.error x)
  | .call o k, f => .call o fun r ↦ (k r).handle f

/-- The continuation that runs `f` on a value and lets an exception through. -/
def onOk (f : α → Prog Op Ans Exc β) : Except Exc α → Prog Op Ans Exc β
  | .ok a => f a
  | .error x => .raise x

/-- The continuation of an `except` clause: a value is returned, an exception goes to `h`. -/
def onError (h : Exc → Prog Op Ans Exc α) : Except Exc α → Prog Op Ans Exc α
  | .ok a => .pure a
  | .error x => h x

instance : Monad (Prog Op Ans Exc) where
  pure := .pure
  bind p f := p.handle (onOk f)

/-- A `try … except` statement. -/
def tryCatch (p : Prog Op Ans Exc α) (h : Exc → Prog Op Ans Exc α) : Prog Op Ans Exc α :=
  p.handle (onError h)

/-- A `try … finally` statement: the outcome of `p` is kept unless `cleanup` raises. -/
def tryFinally (p : Prog Op Ans Exc α) (cleanup : Prog Op Ans Exc Unit) : Prog Op Ans Exc α :=
  p.handle fun r ↦ cleanup.handle (onOk fun _ ↦ ofExcept r)

/-- Run a program and return its outcome as a value. -/
def attempt (p : Prog Op Ans Exc α) : Prog Op Ans Exc (Except Exc α) := p.handle .pure

/-- The program that calls one operation. -/
def op (o : Op) : Prog Op Ans Exc (Ans o) := .call o ofExcept

/-! ## Laws -/

@[simp] theorem ofExcept_ok (a : α) : (ofExcept (.ok a) : Prog Op Ans Exc α) = .pure a := rfl

@[simp] theorem ofExcept_error (x : Exc) : (ofExcept (.error x) : Prog Op Ans Exc α) = .raise x :=
  rfl

@[simp] theorem handle_pure (a : α) (f : Except Exc α → Prog Op Ans Exc β) :
    (Prog.pure a).handle f = f (.ok a) := rfl

@[simp] theorem handle_raise (x : Exc) (f : Except Exc α → Prog Op Ans Exc β) :
    (Prog.raise x).handle f = f (.error x) := rfl

@[simp] theorem handle_call (o : Op) (k : Except Exc (Ans o) → Prog Op Ans Exc α)
    (f : Except Exc α → Prog Op Ans Exc β) :
    (Prog.call o k).handle f = .call o fun r ↦ (k r).handle f := rfl

@[simp] theorem onOk_ok (f : α → Prog Op Ans Exc β) (a : α) : onOk f (.ok a) = f a := rfl

@[simp] theorem onOk_error (f : α → Prog Op Ans Exc β) (x : Exc) :
    onOk f (.error x) = .raise x := rfl

@[simp] theorem onError_ok (h : Exc → Prog Op Ans Exc α) (a : α) :
    onError h (.ok a) = .pure a := rfl

@[simp] theorem onError_error (h : Exc → Prog Op Ans Exc α) (x : Exc) :
    onError h (.error x) = h x := rfl

theorem bind_eq_handle (p : Prog Op Ans Exc α) (f : α → Prog Op Ans Exc β) :
    p >>= f = p.handle (onOk f) := rfl

theorem pure_eq (a : α) : (Pure.pure a : Prog Op Ans Exc α) = .pure a := rfl

theorem handle_ofExcept (p : Prog Op Ans Exc α) : p.handle ofExcept = p := by
  induction p with
  | pure a => rfl
  | raise x => rfl
  | call o k ih => exact congrArg (Prog.call o) (funext ih)

theorem handle_assoc (p : Prog Op Ans Exc α) (f : Except Exc α → Prog Op Ans Exc β)
    (g : Except Exc β → Prog Op Ans Exc γ) :
    (p.handle f).handle g = p.handle fun r ↦ (f r).handle g := by
  induction p with
  | pure a => rfl
  | raise x => rfl
  | call o k ih => exact congrArg (Prog.call o) (funext ih)

theorem onOk_pure : (onOk Prog.pure : Except Exc α → Prog Op Ans Exc α) = ofExcept := by
  funext r
  cases r <;> rfl

theorem map_id (p : Prog Op Ans Exc α) : id <$> p = p := by
  change p.handle (onOk Prog.pure) = p
  rw [onOk_pure, handle_ofExcept]

theorem bind_assoc (p : Prog Op Ans Exc α) (f : α → Prog Op Ans Exc β) (g : β → Prog Op Ans Exc γ) :
    p >>= f >>= g = p >>= fun a ↦ f a >>= g := by
  simp only [bind_eq_handle, handle_assoc]
  congr 1
  funext r
  cases r <;> rfl

instance : LawfulMonad (Prog Op Ans Exc) := .mk' _ map_id (fun _ _ ↦ rfl) bind_assoc

/-! ## The operations a program can perform -/

/-- Every operation that can occur in the program satisfies `P`. -/
def Uses (P : Op → Prop) : Prog Op Ans Exc α → Prop
  | .pure _ => True
  | .raise _ => True
  | .call o k => P o ∧ ∀ r, (k r).Uses P

variable {P Q : Op → Prop}

@[simp] theorem uses_pure (a : α) : (Prog.pure a : Prog Op Ans Exc α).Uses P := trivial

@[simp] theorem uses_pure' (a : α) : (Pure.pure a : Prog Op Ans Exc α).Uses P := trivial

@[simp] theorem uses_raise (x : Exc) : (Prog.raise x : Prog Op Ans Exc α).Uses P := trivial

@[simp] theorem uses_ofExcept (r : Except Exc α) : (ofExcept r : Prog Op Ans Exc α).Uses P := by
  cases r <;> trivial

@[simp] theorem uses_op {o : Op} : (op o : Prog Op Ans Exc (Ans o)).Uses P ↔ P o :=
  ⟨fun h ↦ h.1, fun h ↦ ⟨h, fun r ↦ uses_ofExcept r⟩⟩

theorem Uses.handle {p : Prog Op Ans Exc α} {f : Except Exc α → Prog Op Ans Exc β}
    (hp : p.Uses P) (hf : ∀ r, (f r).Uses P) : (p.handle f).Uses P := by
  induction p with
  | pure a => exact hf _
  | raise x => exact hf _
  | call o k ih => exact ⟨hp.1, fun r ↦ ih r (hp.2 r)⟩

theorem Uses.bind {p : Prog Op Ans Exc α} {f : α → Prog Op Ans Exc β} (hp : p.Uses P)
    (hf : ∀ a, (f a).Uses P) : (p >>= f).Uses P :=
  hp.handle fun r ↦ by cases r <;> simp [hf]

theorem Uses.tryCatch {p : Prog Op Ans Exc α} {h : Exc → Prog Op Ans Exc α} (hp : p.Uses P)
    (hh : ∀ x, (h x).Uses P) : (p.tryCatch h).Uses P :=
  hp.handle fun r ↦ by cases r <;> simp [hh]

theorem Uses.tryFinally {p : Prog Op Ans Exc α} {c : Prog Op Ans Exc Unit} (hp : p.Uses P)
    (hc : c.Uses P) : (p.tryFinally c).Uses P :=
  hp.handle fun r ↦ hc.handle fun r' ↦ by cases r' <;> simp

theorem Uses.attempt {p : Prog Op Ans Exc α} (hp : p.Uses P) : p.attempt.Uses P :=
  hp.handle fun _ ↦ trivial

theorem Uses.mono (h : ∀ o, P o → Q o) {p : Prog Op Ans Exc α} (hp : p.Uses P) : p.Uses Q := by
  induction p with
  | pure a => trivial
  | raise x => trivial
  | call o k ih => exact ⟨h o hp.1, fun r ↦ ih r (hp.2 r)⟩

theorem Uses.forM {f : α → Prog Op Ans Exc PUnit} {xs : List α} (hf : ∀ a ∈ xs, (f a).Uses P) :
    (forM xs f : Prog Op Ans Exc PUnit).Uses P := by
  induction xs with
  | nil => trivial
  | cons a xs ih =>
    rw [List.forM_cons]
    exact (hf a List.mem_cons_self).bind fun _ ↦ ih fun b hb ↦ hf b (List.mem_cons_of_mem a hb)

theorem Uses.mapM {f : α → Prog Op Ans Exc β} {xs : List α} (hf : ∀ a ∈ xs, (f a).Uses P) :
    (xs.mapM f).Uses P := by
  induction xs with
  | nil => trivial
  | cons a xs ih =>
    rw [List.mapM_cons]
    exact (hf a List.mem_cons_self).bind fun _ ↦
      (ih fun b hb ↦ hf b (List.mem_cons_of_mem a hb)).bind fun _ ↦ trivial

/-! ## The operations a program has to perform -/

/-- Every run that returns has performed an operation that satisfies `P`, and it succeeded. -/
def Performs (P : Op → Prop) : Prog Op Ans Exc α → Prop
  | .pure _ => False
  | .raise _ => True
  | .call o k => ∀ r, (P o ∧ ∃ a, r = .ok a) ∨ (k r).Performs P

@[simp] theorem performs_raise (x : Exc) : (Prog.raise x : Prog Op Ans Exc α).Performs P := trivial

theorem performs_op {o : Op} (h : P o) : (op o : Prog Op Ans Exc (Ans o)).Performs P := by
  intro r
  cases r with
  | ok a => exact .inl ⟨h, a, rfl⟩
  | error x => exact .inr trivial

theorem Performs.handle {p : Prog Op Ans Exc α} {f : Except Exc α → Prog Op Ans Exc β}
    (hp : p.Performs P) (hf : ∀ x, (f (.error x)).Performs P) : (p.handle f).Performs P := by
  induction p with
  | pure a => exact hp.elim
  | raise x => exact hf x
  | call o k ih => exact fun r ↦ (hp r).imp_right (ih r)

theorem Performs.handle_right {p : Prog Op Ans Exc α} {f : Except Exc α → Prog Op Ans Exc β}
    (hf : ∀ r, (f r).Performs P) : (p.handle f).Performs P := by
  induction p with
  | pure a => exact hf _
  | raise x => exact hf _
  | call o k ih => exact fun r ↦ .inr (ih r)

theorem Performs.bind {p : Prog Op Ans Exc α} {f : α → Prog Op Ans Exc β} (hp : p.Performs P) :
    (p >>= f).Performs P :=
  hp.handle fun _ ↦ trivial

theorem Performs.bind_right {p : Prog Op Ans Exc α} {f : α → Prog Op Ans Exc β}
    (hf : ∀ a, (f a).Performs P) : (p >>= f).Performs P := by
  refine Performs.handle_right fun r ↦ ?_
  cases r with
  | ok a => exact hf a
  | error x => trivial

theorem Performs.tryCatch {p : Prog Op Ans Exc α} {h : Exc → Prog Op Ans Exc α} (hp : p.Performs P)
    (hh : ∀ x, (h x).Performs P) : (p.tryCatch h).Performs P :=
  hp.handle hh

theorem Performs.forM {f : α → Prog Op Ans Exc PUnit} {xs : List α} {a : α} (ha : a ∈ xs)
    (hf : (f a).Performs P) : (forM xs f : Prog Op Ans Exc PUnit).Performs P := by
  induction xs with
  | nil => cases ha
  | cons b xs ih =>
    rw [List.forM_cons]
    rcases List.mem_cons.mp ha with rfl | ha
    · exact hf.bind
    · exact .bind_right fun _ ↦ ih ha

end Prog

end Effect
