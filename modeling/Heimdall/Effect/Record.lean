import Heimdall.Effect.Wp

/-!
# Runs with a record

What a program may do often depends on what it has seen. `Audited G h t` says that every event of
`t` stands in the relation `G` to everything before it, where `h` came before `t`. To prove it of the
runs of a program, the program is verified in a setting whose state is extended by the record of the
events so far (`Setting.recorded`); `wp_recorded` reads the result back as a statement about runs.

A second relation, `meets`, is assumed of the events: the runs it is about are those in which every
step meets it.
-/

namespace Effect

variable {σ Op : Type} {Ans : Op → Type} {Exc α β : Type}

/-- Every event stands in the relation `G` to everything before it. -/
def Audited (G : List (Event σ Op Ans Exc) → Event σ Op Ans Exc → Prop)
    (h t : List (Event σ Op Ans Exc)) : Prop :=
  ∀ t₁ e t₂, t = t₁ ++ e :: t₂ → G (h ++ t₁) e

variable {G G' meets : List (Event σ Op Ans Exc) → Event σ Op Ans Exc → Prop}
  {h t : List (Event σ Op Ans Exc)} {e : Event σ Op Ans Exc} {env : Env σ Op Ans Exc}

theorem audited_nil : Audited G h [] := by
  intro t₁ e t₂ heq
  simp at heq

theorem audited_cons : Audited G h (e :: t) ↔ G h e ∧ Audited G (h ++ [e]) t := by
  constructor
  · refine fun ht ↦ ⟨by simpa using ht [] e t rfl, fun t₁ e' t₂ heq ↦ ?_⟩
    simpa using ht (e :: t₁) e' t₂ (by rw [heq, List.cons_append])
  · rintro ⟨hhead, htail⟩ t₁ e' t₂ heq
    cases t₁ with
    | nil =>
      obtain ⟨rfl, rfl⟩ := List.cons.inj heq
      simpa using hhead
    | cons e₁ t₁ =>
      obtain ⟨rfl, rfl⟩ := List.cons.inj heq
      simpa using htail t₁ e' t₂ rfl

theorem audited_concat : Audited G h (t ++ [e]) ↔ Audited G h t ∧ G (h ++ t) e := by
  constructor
  · intro ht
    exact ⟨fun t₁ e' t₂ heq ↦ ht t₁ e' (t₂ ++ [e]) (by simp [heq]), ht t e [] rfl⟩
  · rintro ⟨ht, he⟩ t₁ e' t₂ heq
    rcases List.eq_nil_or_concat t₂ with rfl | ⟨rest, last, rfl⟩
    · obtain ⟨rfl, hlast⟩ := List.append_inj' heq rfl
      obtain ⟨rfl, -⟩ := List.cons.inj hlast
      exact he
    · rw [List.concat_eq_append, ← List.cons_append, ← List.append_assoc] at heq
      obtain ⟨heq, -⟩ := List.append_inj' heq rfl
      exact ht t₁ e' rest heq

theorem Audited.mono (ht : Audited G h t) (hG : ∀ h e, G h e → G' h e) : Audited G' h t :=
  fun t₁ e t₂ heq ↦ hG _ _ (ht t₁ e t₂ heq)

theorem Audited.forall_mem {P : Event σ Op Ans Exc → Prop}
    (ht : Audited (fun _ e ↦ P e) h t) : ∀ e ∈ t, P e := by
  intro e he
  obtain ⟨t₁, t₂, rfl⟩ := List.append_of_mem he
  exact ht t₁ e t₂ rfl

/-- The setting of a program that runs alone, with a record of the events. -/
def Setting.recorded (env : Env σ Op Ans Exc)
    (meets G : List (Event σ Op Ans Exc) → Event σ Op Ans Exc → Prop) :
    Setting (List (Event σ Op Ans Exc) × σ) Op Ans Exc where
  step s o r s' := env s.2 o r s'.2 ∧ meets s.1 ⟨s.2, o, r, s'.2⟩
    ∧ s'.1 = s.1 ++ [⟨s.2, o, r, s'.2⟩]
  rely := Eq
  guar s o r s' := G s.1 ⟨s.2, o, r, s'.2⟩

variable {p p' : Prog Op Ans Exc α} {Q : Except Exc α → List (Event σ Op Ans Exc) × σ → Prop}
  {s s' : σ}

/-- **Reading a record back.** In a run whose steps all meet `meets`, every event is as it has to be,
and the precondition is still there for what remains. -/
theorem wp_recorded (hwp : wp (.recorded env meets G) p Q (h, s)) (ht : Trace env p s t p' s')
    (hm : Audited meets h t) :
    Audited G h t ∧ wp (.recorded env meets G) p' Q (h ++ t, s') := by
  induction ht generalizing h with
  | nil p s => exact ⟨audited_nil, by rwa [List.append_nil]⟩
  | @cons o k s s₁ s' r t p' hstep hrest ih =>
    obtain ⟨hmeets, hm⟩ := audited_cons.mp hm
    obtain ⟨hG, hk⟩ := hwp (h, s) rfl r (h ++ [(⟨s, o, r, s₁⟩ : Event σ Op Ans Exc)], s₁)
      ⟨hstep, hmeets, rfl⟩
    obtain ⟨hrun, hend⟩ := ih hk hm
    refine ⟨audited_cons.mpr ⟨hG, hrun⟩, ?_⟩
    rwa [List.append_assoc] at hend

theorem wp_recorded_ends {r : Except Exc α} (hwp : wp (.recorded env meets G) p Q ([], s))
    (ht : Ends env p s t r s') (hm : Audited meets [] t) : Audited G [] t ∧ Q r (t, s') := by
  obtain ⟨hrun, hend⟩ := wp_recorded hwp ht hm
  rw [wp_ofExcept] at hend
  exact ⟨hrun, hend⟩

end Effect
