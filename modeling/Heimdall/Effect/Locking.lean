import Mathlib

/-!
# Transactions that lock rows

A transaction locks rows one at a time, remembers what it read of them, and commits later; other
transactions run in between. What it decides on is what it has read, which need not be what the store
has when it commits.

A row that is locked is not changed by others, provided that every transaction locks the rows it
changes (`LockedStore.frame`). Then what was read is still there at the commit (`Locked.Faithful`),
and a run of interleaved transactions goes through the states of a run that takes each transaction at
one instant (`Locked.atomic`).
-/

namespace Effect

variable {σ κ ν Tx : Type}

/-- A store whose rows can be locked, and the transactions on it. -/
structure LockedStore (σ κ ν Tx : Type) where
  /-- What the store has in a row. -/
  row : σ → κ → ν
  /-- The rows a transaction must lock before it commits. -/
  needs : σ → Tx → Set κ
  /-- The effect of a transaction that has read these rows. -/
  commit : (κ → ν) → Tx → σ → σ → Prop
  /-- A transaction changes only rows it has to lock. -/
  frame : ∀ {t s s'}, commit (row s) t s s' → ∀ k ∉ needs s t, row s' k = row s k

/-- A transaction at one instant. -/
def LockedStore.Atomic (S : LockedStore σ κ ν Tx) (t : Tx) (s s' : σ) : Prop :=
  S.commit (S.row s) t s s'

/-- An open transaction: the rows it has locked, with what it read. -/
structure Session (κ ν Tx : Type) where
  tx : Tx
  read : List (κ × ν)

/-- The session holds the lock of a row. -/
def Session.Holds (a : Session κ ν Tx) (k : κ) : Prop := ∃ v, (k, v) ∈ a.read

/-- A store with its open transactions. -/
structure Locked (σ κ ν Tx : Type) where
  state : σ
  sessions : List (Session κ ν Tx)

variable {S : LockedStore σ κ ν Tx}

/-- The rows as a session sees them: those it has locked as it read them. -/
def LockedStore.seen [DecidableEq κ] (S : LockedStore σ κ ν Tx) (s : σ) (a : Session κ ν Tx) (k : κ) : ν :=
  ((a.read.find? fun x ↦ x.1 = k).map Prod.snd).getD (S.row s k)

namespace Locked

/-- One step of one transaction. -/
inductive Step [DecidableEq κ] (S : LockedStore σ κ ν Tx) : Locked σ κ ν Tx → Locked σ κ ν Tx → Prop
  | start (s : σ) (as : List (Session κ ν Tx)) (t : Tx) : Step S ⟨s, as⟩ ⟨s, ⟨t, []⟩ :: as⟩
  | lock (s : σ) (as bs : List (Session κ ν Tx)) (t : Tx) (read : List (κ × ν)) (k : κ)
    (hfree : ∀ b ∈ as ++ bs, ¬ b.Holds k) :
    Step S ⟨s, as ++ ⟨t, read⟩ :: bs⟩ ⟨s, as ++ ⟨t, (k, S.row s k) :: read⟩ :: bs⟩
  | commit (s s' : σ) (as bs : List (Session κ ν Tx)) (a : Session κ ν Tx)
    (hlocks : ∀ k ∈ S.needs s a.tx, a.Holds k) (hcommit : S.commit (S.seen s a) a.tx s s') :
    Step S ⟨s, as ++ a :: bs⟩ ⟨s', as ++ bs⟩
  /-- It raises, or its connection is lost. -/
  | rollback (s : σ) (as bs : List (Session κ ν Tx)) (a : Session κ ν Tx) :
    Step S ⟨s, as ++ a :: bs⟩ ⟨s, as ++ bs⟩

/-- The step in which this transaction commits. -/
inductive Commit [DecidableEq κ] (S : LockedStore σ κ ν Tx) (t : Tx) :
    Locked σ κ ν Tx → Locked σ κ ν Tx → Prop
  | mk (s s' : σ) (as bs : List (Session κ ν Tx)) (a : Session κ ν Tx) (htx : a.tx = t)
    (hlocks : ∀ k ∈ S.needs s a.tx, a.Holds k) (hcommit : S.commit (S.seen s a) a.tx s s') :
    Commit S t ⟨s, as ++ a :: bs⟩ ⟨s', as ++ bs⟩

/-- Locked rows are as they were read, and no two transactions have locked the same row. -/
structure Faithful (S : LockedStore σ κ ν Tx) (L : Locked σ κ ν Tx) : Prop where
  reads : ∀ a ∈ L.sessions, ∀ x ∈ a.read, S.row L.state x.1 = x.2
  apart : L.sessions.Pairwise fun a b ↦ ∀ k, ¬ (a.Holds k ∧ b.Holds k)

variable {L L' : Locked σ κ ν Tx} {s : σ}

theorem Faithful.initial (s : σ) : Faithful S ⟨s, []⟩ := ⟨by simp, List.Pairwise.nil⟩

theorem Faithful.seen_eq [DecidableEq κ] (h : Faithful S L) {a : Session κ ν Tx} (ha : a ∈ L.sessions) :
    S.seen L.state a = S.row L.state := by
  funext k
  rw [LockedStore.seen]
  cases hfind : a.read.find? (fun x ↦ decide (x.1 = k)) with
  | none => rfl
  | some x =>
    have hk : x.1 = k := by simpa using List.find?_some hfind
    rw [Option.map_some, Option.getD_some, ← h.reads a ha x (List.mem_of_find?_eq_some hfind), hk]

theorem mem_middle {α : Type} {a x : α} {as bs : List α} :
    x ∈ as ++ a :: bs ↔ x = a ∨ x ∈ as ++ bs := List.perm_middle.mem_iff.trans List.mem_cons

/-- Sessions at different places of the list hold different rows. -/
theorem apart_middle {R : Session κ ν Tx → Session κ ν Tx → Prop} (hR : ∀ a b, R a b → R b a)
    {as bs : List (Session κ ν Tx)} {a : Session κ ν Tx} (h : (as ++ a :: bs).Pairwise R) :
    (as ++ bs).Pairwise R ∧ ∀ b ∈ as ++ bs, R a b := by
  have hperm : (as ++ a :: bs).Perm (a :: (as ++ bs)) := List.perm_middle
  obtain ⟨hhead, htail⟩ := List.pairwise_cons.mp ((hperm.pairwise_iff fun hab ↦ hR _ _ hab).mp h)
  exact ⟨htail, hhead⟩

theorem apart_symm (a b : Session κ ν Tx) (h : ∀ k, ¬ (a.Holds k ∧ b.Holds k)) :
    ∀ k, ¬ (b.Holds k ∧ a.Holds k) := fun k hk ↦ h k hk.symm

variable [DecidableEq κ]

/-- What a step does to the store: nothing, or a transaction at one instant. -/
theorem Step.atomic (h : Faithful S L) (hs : Step S L L') :
    L'.state = L.state ∨ ∃ a ∈ L.sessions, S.Atomic a.tx L.state L'.state := by
  cases hs with
  | start s as t => exact .inl rfl
  | lock s as bs t read k hfree => exact .inl rfl
  | commit s s' as bs a hlocks hcommit =>
    have ha : a ∈ as ++ a :: bs := mem_middle.mpr (.inl rfl)
    rw [h.seen_eq ha] at hcommit
    exact .inr ⟨a, ha, hcommit⟩
  | rollback s as bs a => exact .inl rfl

/-- A transaction that commits acts on what the store has at that moment. -/
theorem Commit.atomic {t : Tx} (h : Faithful S L) (hc : Commit S t L L') :
    S.Atomic t L.state L'.state := by
  cases hc with
  | mk s s' as bs a htx hlocks hcommit =>
    rw [h.seen_eq (mem_middle.mpr (.inl rfl)), htx] at hcommit
    exact hcommit

theorem Faithful.step (h : Faithful S L) (hs : Step S L L') : Faithful S L' := by
  cases hs with
  | start s as t =>
    refine ⟨fun a ha x hx ↦ ?_, List.pairwise_cons.mpr ⟨fun b _ k hk ↦ ?_, h.apart⟩⟩
    · rcases List.mem_cons.mp ha with rfl | ha
      · exact absurd hx List.not_mem_nil
      · exact h.reads a ha x hx
    · obtain ⟨⟨v, hv⟩, -⟩ := hk
      exact absurd hv List.not_mem_nil
  | lock s as bs t read k hfree =>
    obtain ⟨htail, hhead⟩ := apart_middle apart_symm h.apart
    refine ⟨fun a ha x hx ↦ ?_, ?_⟩
    · rcases mem_middle.mp ha with rfl | ha
      · rcases List.mem_cons.mp hx with rfl | hx
        · rfl
        · exact h.reads ⟨t, read⟩ (mem_middle.mpr (.inl rfl)) x hx
      · exact h.reads a (mem_middle.mpr (.inr ha)) x hx
    · refine (List.perm_middle.pairwise_iff fun hab ↦ apart_symm _ _ hab).mpr
        (List.pairwise_cons.mpr ⟨fun b hb q hq ↦ ?_, htail⟩)
      obtain ⟨⟨v, hv⟩, hheld⟩ := hq
      rcases List.mem_cons.mp hv with heq | hv
      · exact hfree b hb ((Prod.mk.inj heq).1 ▸ hheld)
      · exact hhead b hb q ⟨⟨v, hv⟩, hheld⟩
  | commit s s' as bs a hlocks hcommit =>
    have ha : a ∈ as ++ a :: bs := mem_middle.mpr (.inl rfl)
    rw [h.seen_eq ha] at hcommit
    obtain ⟨htail, hhead⟩ := apart_middle apart_symm h.apart
    refine ⟨fun b hb x hx ↦ ?_, htail⟩
    have hfree : x.1 ∉ S.needs s a.tx := fun hneeds ↦
      hhead b hb x.1 ⟨hlocks x.1 hneeds, x.2, hx⟩
    rw [S.frame hcommit x.1 hfree]
    exact h.reads b (mem_middle.mpr (.inr hb)) x hx
  | rollback s as bs a =>
    refine ⟨fun b hb x hx ↦ ?_, (apart_middle apart_symm h.apart).1⟩
    exact h.reads b (mem_middle.mpr (.inr hb)) x hx

theorem Faithful.steps (h : Faithful S L) (hs : Relation.ReflTransGen (Step S) L L') :
    Faithful S L' := by
  induction hs with
  | refl => exact h
  | tail _ hstep ih => exact ih.step hstep

/-- **Locking makes transactions atomic.** The states of an interleaved run are those of a run of
transactions at one instant each. -/
theorem atomic (h : Faithful S L) (hs : Relation.ReflTransGen (Step S) L L') :
    Relation.ReflTransGen (fun s s' ↦ ∃ t, S.Atomic t s s') L.state L'.state := by
  induction hs with
  | refl => exact .refl
  | tail hrest hstep ih =>
    rcases hstep.atomic (h.steps hrest) with heq | ⟨a, -, hatomic⟩
    · exact heq ▸ ih
    · exact ih.tail ⟨a.tx, hatomic⟩

/-- A transaction locks these rows, one after the other. -/
theorem lock_all (s : σ) (t : Tx) (ks : List κ) : ∃ read : List (κ × ν),
    (∀ k ∈ ks, (⟨t, read⟩ : Session κ ν Tx).Holds k)
      ∧ Relation.ReflTransGen (Step S) ⟨s, [⟨t, []⟩]⟩ ⟨s, [⟨t, read⟩]⟩ := by
  induction ks with
  | nil => exact ⟨[], by simp, .refl⟩
  | cons k ks ih =>
    obtain ⟨read, hheld, hs⟩ := ih
    refine ⟨(k, S.row s k) :: read, fun q hq ↦ ?_, hs.tail (.lock s [] [] t read k (by simp))⟩
    rcases List.mem_cons.mp hq with rfl | hq
    · exact ⟨S.row s q, List.mem_cons_self⟩
    · obtain ⟨v, hv⟩ := hheld q hq
      exact ⟨v, List.mem_cons_of_mem _ hv⟩

/-- A transaction that runs alone takes effect at one instant. -/
theorem of_atomic {s' : σ} {t : Tx} {ks : List κ} (hks : ∀ k ∈ S.needs s t, k ∈ ks)
    (h : S.Atomic t s s') : Relation.ReflTransGen (Step S) ⟨s, []⟩ ⟨s', []⟩ := by
  obtain ⟨read, hheld, hs⟩ := lock_all (S := S) s t ks
  have hstart : Relation.ReflTransGen (Step S) ⟨s, []⟩ ⟨s, [⟨t, read⟩]⟩ :=
    hs.head (.start s [] t)
  have hseen : S.seen s ⟨t, read⟩ = S.row s :=
    ((Faithful.initial s).steps hstart).seen_eq List.mem_cons_self
  refine hstart.tail (.commit s s' [] [] ⟨t, read⟩ (fun k hk ↦ hheld k (hks k hk)) ?_)
  rw [hseen]
  exact h

end Locked

end Effect
