import Heimdall.Effect.Program

/-!
# Runs of a program

An environment relates the state before an operation, the operation, what it answers or raises,
and the state after it. A `Trace` is a run prefix: the events so far and the program still to be
executed. A run that has ended is a trace whose remaining program is an outcome; a crashed run is
any trace at all, since the process may stop between two operations.

`exec` runs a program with a function in place of the relation. It exists so that concrete runs
can be computed; `exec_ends` turns such a computation into a trace.
-/

namespace Effect

/-- How a world reacts to operations: state before, operation, outcome, state after. -/
abbrev Env (σ Op : Type) (Ans : Op → Type) (Exc : Type) :=
  σ → (o : Op) → Except Exc (Ans o) → σ → Prop

/-- One executed operation, with the states around it. -/
structure Event (σ Op : Type) (Ans : Op → Type) (Exc : Type) where
  /-- The state before the operation. -/
  pre : σ
  /-- The operation. -/
  op : Op
  /-- What it answered or raised. -/
  ans : Except Exc (Ans op)
  /-- The state after it. -/
  post : σ

variable {σ τ Op : Type} {Ans : Op → Type} {Exc α β : Type}

/-- `Trace env p s t p' s'`: from `s`, the program `p` performs the events `t`, after which `p'` is
still to be executed and the state is `s'`. -/
inductive Trace (env : Env σ Op Ans Exc) :
    Prog Op Ans Exc α → σ → List (Event σ Op Ans Exc) → Prog Op Ans Exc α → σ → Prop
  | nil (p : Prog Op Ans Exc α) (s : σ) : Trace env p s [] p s
  | cons {o : Op} {k : Except Exc (Ans o) → Prog Op Ans Exc α} {s s₁ s' : σ}
      {r : Except Exc (Ans o)} {t : List (Event σ Op Ans Exc)} {p' : Prog Op Ans Exc α}
      (hstep : env s o r s₁) (hrest : Trace env (k r) s₁ t p' s') :
      Trace env (.call o k) s (⟨s, o, r, s₁⟩ :: t) p' s'

/-- The program ends, with outcome `r`. -/
def Ends (env : Env σ Op Ans Exc) (p : Prog Op Ans Exc α) (s : σ) (t : List (Event σ Op Ans Exc))
    (r : Except Exc α) (s' : σ) : Prop :=
  Trace env p s t (.ofExcept r) s'

namespace Trace

variable {env : Env σ Op Ans Exc}

theorem append {p p₁ p₂ : Prog Op Ans Exc α} {s s₁ s₂ : σ} {t₁ t₂ : List (Event σ Op Ans Exc)}
    (h₁ : Trace env p s t₁ p₁ s₁) (h₂ : Trace env p₁ s₁ t₂ p₂ s₂) :
    Trace env p s (t₁ ++ t₂) p₂ s₂ := by
  induction h₁ with
  | nil p s => exact h₂
  | cons hstep _ ih => exact .cons hstep (ih h₂)

theorem handle {p p' : Prog Op Ans Exc α} {s s' : σ} {t : List (Event σ Op Ans Exc)}
    (f : Except Exc α → Prog Op Ans Exc β) (h : Trace env p s t p' s') :
    Trace env (p.handle f) s t (p'.handle f) s' := by
  induction h with
  | nil p s => exact .nil _ _
  | cons hstep _ ih => exact .cons hstep ih

theorem mono {env' : Env σ Op Ans Exc} {p p' : Prog Op Ans Exc α} {s s' : σ}
    {t : List (Event σ Op Ans Exc)} (h : Trace env p s t p' s')
    (henv : ∀ s o r s', env s o r s' → env' s o r s') : Trace env' p s t p' s' := by
  induction h with
  | nil p s => exact .nil _ _
  | cons hstep _ ih => exact .cons (henv _ _ _ _ hstep) ih

/-- Only operations of the program occur in its runs. -/
theorem uses {P : Op → Prop} {p p' : Prog Op Ans Exc α} {s s' : σ}
    {t : List (Event σ Op Ans Exc)} (h : Trace env p s t p' s') (hp : p.Uses P) :
    (∀ e ∈ t, P e.op) ∧ p'.Uses P := by
  induction h with
  | nil p s => exact ⟨by simp, hp⟩
  | cons hstep hrest ih =>
    obtain ⟨hin, hrem⟩ := ih (hp.2 _)
    exact ⟨List.forall_mem_cons.mpr ⟨hp.1, hin⟩, hrem⟩

end Trace

/-- A run that returns contains the operations the program has to perform. -/
theorem Ends.performs {env : Env σ Op Ans Exc} {P : Op → Prop} {p : Prog Op Ans Exc α} {s s' : σ}
    {t : List (Event σ Op Ans Exc)} {a : α} (h : Ends env p s t (.ok a) s') (hp : p.Performs P) :
    ∃ e ∈ t, P e.op ∧ ∃ b, e.ans = .ok b := by
  unfold Ends at h
  generalize hlast : Prog.ofExcept (.ok a) = p' at h
  induction h with
  | nil p s =>
    subst hlast
    exact hp.elim
  | @cons o k s s₁ s' r t p' hstep hrest ih =>
    rcases hp r with hr | hr
    · exact ⟨_, List.mem_cons_self, hr⟩
    · obtain ⟨e, he, hP⟩ := ih hr hlast
      exact ⟨e, List.mem_cons_of_mem _ he, hP⟩

/-- A scripted environment: from a script position and a state it computes the next position, the
outcome of an operation and the state after it. -/
abbrev Handler (τ σ Op : Type) (Ans : Op → Type) (Exc : Type) :=
  τ → σ → (o : Op) → τ × Except Exc (Ans o) × σ

/-- Run a program under a scripted environment. -/
def exec (h : Handler τ σ Op Ans Exc) : Prog Op Ans Exc α → τ → σ →
    List (Event σ Op Ans Exc) × Except Exc α × σ
  | .pure a, _, s => ([], .ok a, s)
  | .raise x, _, s => ([], .error x, s)
  | .call o k, c, s =>
    let step := h c s o
    let rest := exec h (k step.2.1) step.1 step.2.2
    (⟨s, o, step.2.1, step.2.2⟩ :: rest.1, rest.2)

theorem exec_ends {env : Env σ Op Ans Exc} {h : Handler τ σ Op Ans Exc}
    (hok : ∀ c s o, env s o (h c s o).2.1 (h c s o).2.2) (p : Prog Op Ans Exc α) (c : τ) (s : σ) :
    Ends env p s (exec h p c s).1 (exec h p c s).2.1 (exec h p c s).2.2 := by
  induction p generalizing c s with
  | pure a => exact .nil _ _
  | raise x => exact .nil _ _
  | call o k ih => exact .cons (hok c s o) (ih _ _ _)

end Effect
