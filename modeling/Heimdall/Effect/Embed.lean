import Heimdall.Effect.Wp

/-!
# Programs inside larger programs

A program over one interface is performed as a part of a program over a larger one (`embed`). The
larger world has a view that the smaller program acts on and a rest that it leaves alone, and a
precondition in the view is one in the larger world (`wp_embed`).

Two rules for a program that goes through a list: one for what each element leaves behind, whatever
happens in between (`wp_mapM`), and one for elements that have each their own part of the state
(`wp_mapM_apart`).
-/

namespace Effect

variable {σ σ' ρ Op Op' : Type} {Ans : Op → Type} {Ans' : Op' → Type} {Exc α β : Type}

/-- Perform the operations of one interface as operations of another. -/
def Prog.embed (ι : Op → Op') (back : ∀ o, Ans' (ι o) → Ans o) :
    Prog Op Ans Exc α → Prog Op' Ans' Exc α
  | .pure a => .pure a
  | .raise x => .raise x
  | .call o k => .call (ι o) fun r ↦ (k (r.map (back o))).embed ι back

theorem Prog.Uses.embed {ι : Op → Op'} {back : ∀ o, Ans' (ι o) → Ans o} {P : Op' → Prop}
    {p : Prog Op Ans Exc α} (hp : p.Uses fun o ↦ P (ι o)) : (p.embed ι back).Uses P := by
  induction p with
  | pure a => trivial
  | raise x => trivial
  | call o k ih => exact ⟨hp.1, fun r ↦ ih _ (hp.2 _)⟩

theorem Prog.Performs.embed {ι : Op → Op'} {back : ∀ o, Ans' (ι o) → Ans o} {P : Op' → Prop}
    {p : Prog Op Ans Exc α} (hp : p.Performs fun o ↦ P (ι o)) : (p.embed ι back).Performs P := by
  induction p with
  | pure a => exact hp.elim
  | raise x => trivial
  | call o k ih =>
    intro r
    rcases hp (r.map (back o)) with ⟨hP, a, ha⟩ | hk
    · refine .inl ⟨hP, ?_⟩
      cases r with
      | error x => cases ha
      | ok b => exact ⟨b, rfl⟩
    · exact .inr (ih _ hk)

theorem wp_embed {ι : Op → Op'} {back : ∀ o, Ans' (ι o) → Ans o} {env guar : Env σ Op Ans Exc}
    {env' guar' : Env σ' Op' Ans' Exc} {view : σ' → σ} {rest : σ' → ρ} {s₀ : σ'}
    (hstep : ∀ s o r s', env' s (ι o) r s' →
      env (view s) o (r.map (back o)) (view s') ∧ rest s' = rest s)
    (hguar : ∀ s o r s', rest s = rest s₀ → rest s' = rest s₀ →
      guar (view s) o (r.map (back o)) (view s') → guar' s (ι o) r s')
    {p : Prog Op Ans Exc α} {Q : Except Exc α → σ → Prop} {s : σ'} (hs : rest s = rest s₀)
    (h : wp (.alone env guar) p Q (view s)) :
    wp (.alone env' guar') (p.embed ι back) (fun r s' ↦ Q r (view s') ∧ rest s' = rest s₀) s := by
  induction p generalizing s with
  | pure a => exact ⟨h, hs⟩
  | raise x => exact ⟨h, hs⟩
  | call o k ih =>
    rintro s₁ rfl r s₂ hcall
    obtain ⟨hview, hrest⟩ := hstep s o r s₂ hcall
    obtain ⟨hg, hk⟩ := h _ rfl _ _ hview
    exact ⟨hguar s o r s₂ hs (hrest.trans hs) hg, ih _ (hrest.trans hs) hk⟩

/-- In a world that does less, with nothing to guarantee. -/
theorem wp_weaken {step step' guar : Env σ Op Ans Exc} (hsub : ∀ s o r s', step' s o r s' → step s o r s')
    {p : Prog Op Ans Exc α} {Q : Except Exc α → σ → Prop} {s : σ} (h : wp (.alone step guar) p Q s) :
    wp (.alone step' fun _ _ _ _ ↦ True) p Q s := by
  induction p generalizing s with
  | pure a => exact h
  | raise x => exact h
  | call o k ih =>
    rintro s₁ rfl r s₂ hcall
    exact ⟨trivial, ih r (h _ rfl _ _ (hsub _ _ _ _ hcall)).2⟩

/-- Every operation of the program leads to a related state, so every point of its runs is related
to the first. -/
theorem wp_growing {step : Env σ Op Ans Exc} {P : Op → Prop} {R : σ → σ → Prop}
    (htrans : ∀ a b c, R a b → R b c → R a c)
    (hstep : ∀ s o r s', P o → step s o r s' → R s s') {p : Prog Op Ans Exc α} (hp : p.Uses P)
    {Q : Except Exc α → σ → Prop} {s₀ s : σ} (hs : R s₀ s)
    (h : wp (.alone step fun _ _ _ _ ↦ True) p Q s) :
    wp (.alone step fun _ _ _ s' ↦ R s₀ s') p (fun r s' ↦ R s₀ s' ∧ Q r s') s := by
  induction p generalizing s with
  | pure a => exact ⟨hs, h⟩
  | raise x => exact ⟨hs, h⟩
  | call o k ih =>
    rintro s₁ rfl r s₂ hcall
    have hs₂ := htrans _ _ _ hs (hstep s o r s₂ hp.1 hcall)
    exact ⟨hs₂, ih r (hp.2 r) hs₂ (h _ rfl _ _ hcall).2⟩

/-! ## Going through a list -/

variable {M : Setting σ Op Ans Exc} {f : α → Prog Op Ans Exc β} {xs : List α} {s₀ s : σ}
  {R : σ → σ → Prop}

/-- Every state that comes later is related to the present one, and what an element leaves behind
is there in every later state. -/
theorem wp_mapM {Post : α → β → σ → Prop} (hrefl : ∀ s, R s s)
    (htrans : ∀ a b c, R a b → R b c → R a c)
    (hpost : ∀ a b s s', Post a b s → R s s' → Post a b s')
    (hf : ∀ a ∈ xs, ∀ s, R s₀ s →
      wp M (f a) (fun r s' ↦ R s s' ∧ ∀ b, r = .ok b → Post a b s') s) (hs : R s₀ s) :
    wp M (xs.mapM f) (fun r s' ↦ R s s' ∧ ∀ bs, r = .ok bs →
      List.Forall₂ (fun a b ↦ Post a b s') xs bs) s := by
  induction xs generalizing s with
  | nil =>
    rw [List.mapM_nil]
    refine ⟨hrefl s, fun bs hbs ↦ ?_⟩
    obtain rfl := Except.ok.inj hbs
    exact .nil
  | cons a xs ih =>
    rw [List.mapM_cons, wp_bind]
    refine wp_mono (hf a List.mem_cons_self s hs) fun r s₁ ⟨hs₁, hr⟩ ↦ ?_
    cases r with
    | error x => exact ⟨hs₁, fun bs hbs ↦ by cases hbs⟩
    | ok b =>
      rw [andThen_ok, wp_bind]
      refine wp_mono (ih (fun a ha ↦ hf a (List.mem_cons_of_mem _ ha)) (htrans _ _ _ hs hs₁))
        fun r s₂ ⟨hs₂, hr₂⟩ ↦ ?_
      cases r with
      | error x => exact ⟨htrans _ _ _ hs₁ hs₂, fun bs hbs ↦ by cases hbs⟩
      | ok bs =>
        refine ⟨htrans _ _ _ hs₁ hs₂, fun bs' hbs' ↦ ?_⟩
        obtain rfl := Except.ok.inj hbs'
        exact .cons (hpost a b s₁ s₂ (hr b rfl) hs₂) (hr₂ bs rfl)

/-- Each element has its own part of the state: what it needs there is not touched by the others. -/
theorem wp_mapM_apart {κ : Type} {Frame : Set κ → σ → σ → Prop} {part : α → Set κ}
    {Pre : α → σ → Prop} (hrefl : ∀ s, Frame ∅ s s)
    (htrans : ∀ A B a b c, Frame A a b → Frame B b c → Frame (A ∪ B) a c)
    (hpre : ∀ a A s s', Disjoint A (part a) → Frame A s s' → Pre a s → Pre a s')
    (hf : ∀ a ∈ xs, ∀ s, Pre a s →
      wp M (f a) (fun r s' ↦ Frame (part a) s s' ∧ ∃ b, r = .ok b) s)
    (hparts : xs.Pairwise fun a b ↦ Disjoint (part a) (part b)) (hs : ∀ a ∈ xs, Pre a s) :
    wp M (xs.mapM f) (fun r s' ↦ Frame {i | ∃ a ∈ xs, i ∈ part a} s s' ∧ ∃ bs, r = .ok bs) s := by
  induction xs generalizing s with
  | nil =>
    rw [List.mapM_nil]
    refine ⟨?_, [], rfl⟩
    convert hrefl s
    simp
  | cons a xs ih =>
    obtain ⟨hhead, htail⟩ := List.pairwise_cons.mp hparts
    rw [List.mapM_cons, wp_bind]
    refine wp_mono (hf a List.mem_cons_self s (hs a List.mem_cons_self)) fun r s₁ ⟨hs₁, b, hr⟩ ↦ ?_
    subst hr
    rw [andThen_ok, wp_bind]
    refine wp_mono (ih (fun a ha ↦ hf a (List.mem_cons_of_mem _ ha)) htail fun b hb ↦
      hpre b _ s s₁ (hhead b hb) hs₁ (hs b (List.mem_cons_of_mem _ hb))) fun r s₂ ⟨hs₂, bs, hr⟩ ↦ ?_
    subst hr
    refine ⟨?_, b :: bs, rfl⟩
    convert htrans _ _ _ _ _ hs₁ hs₂
    ext i
    simp

end Effect
