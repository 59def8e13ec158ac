import Heimdall.PublicRoutes.Fencing

/-!
# Host names belong to one project

A route row holds up to two host names: the one it asks for and the one the edge serves for it, which
differ while a rename or a release is on its way. Each unique index of the table sees one of the two
columns; the check across the columns is made by `set_enabled` alone.

An operation other than `set_enabled` gives a row only names that it holds already, and `set_enabled`
only one that no other row holds, so the names of two projects never meet
(`reachable_hostnames_disjoint`). A name that is served stays with its project until a `complete`
of that project has released it.
-/

namespace Heimdall

/-- The host names a row holds, as requested or as applied. -/
def RouteRow.hostnames (row : RouteRow) : Set String :=
  {n | row.hostname = n ∨ row.appliedHostname = some n}

namespace RouteDb

/-- A project's route is served under a host name. -/
def Serves (db : RouteDb) (p : Uuid) (n : String) : Prop :=
  ∃ row, db.routes.lookup p = some row ∧ row.appliedHostname = some n

/-- A project's route holds a host name. -/
def Holds (db : RouteDb) (p : Uuid) (n : String) : Prop :=
  ∃ row, db.routes.lookup p = some row ∧ n ∈ row.hostnames

/-- No host name is held by two projects. -/
def HostnamesDisjoint (db : RouteDb) : Prop :=
  ∀ p q a b, p ≠ q → db.routes.lookup p = some a → db.routes.lookup q = some b →
    Disjoint a.hostnames b.hostnames

variable {db db' : RouteDb} {p q : Uuid} {n : String}

theorem Serves.holds (h : db.Serves p n) : db.Holds p n := by
  obtain ⟨row, hrow, hn⟩ := h
  exact ⟨row, hrow, .inr hn⟩

theorem HostnamesDisjoint.not_holds (hd : db.HostnamesDisjoint) (hpq : p ≠ q)
    (hp : db.Holds p n) : ¬db.Holds q n := by
  rintro ⟨b, hb, hnb⟩
  obtain ⟨a, ha, hna⟩ := hp
  exact Set.disjoint_left.mp (hd p q a b hpq ha hb) hna hnb

theorem HostnameFree.not_holds (hfree : db.HostnameFree p n) (hpq : q ≠ p) : ¬db.Holds q n := by
  rintro ⟨b, hb, hnb⟩
  obtain ⟨hhostname, happlied⟩ := hfree q b hpq hb
  exact hnb.elim hhostname happlied

/-- A commit keeps the names apart when the row it writes holds only names that its project held
already or that are free. -/
theorem HostnamesDisjoint.writes (hd : db.HostnamesDisjoint) {row : RouteRow} {job : JobRow}
    (hw : db.Writes db' p row job)
    (hrow : ∀ n ∈ row.hostnames, db.Holds p n ∨ db.HostnameFree p n) : db'.HostnamesDisjoint := by
  have hother : ∀ q b, q ≠ p → db.routes.lookup q = some b →
      Disjoint row.hostnames b.hostnames := by
    intro q b hq hb
    refine Set.disjoint_left.mpr fun n hn hnb ↦ ?_
    rcases hrow n hn with hheld | hfree
    · exact hd.not_holds (Ne.symm hq) hheld ⟨b, hb, hnb⟩
    · exact hfree.not_holds hq ⟨b, hb, hnb⟩
  intro q r a b hqr ha hb
  rw [hw.routes] at ha hb
  split_ifs at ha hb with hq hr hr
  · exact absurd (hq.trans hr.symm) hqr
  · cases ha
    exact hother r b hr hb
  · cases hb
    exact (hother q a hq ha).symm
  · exact hd q r a b hqr ha hb

/-- A host name that somebody else holds cannot be requested. -/
theorem setEnabled_of_holds (hpq : p ≠ q) (hp : db.Holds p n) (subdomain : String) (now : Time) :
    db.setEnabled q subdomain n now = .error .publicRouteProjectDeleting
      ∨ db.setEnabled q subdomain n now = .error .publicRouteConflict := by
  unfold setEnabled
  cases hlock : db.lockProjectMutation q with
  | error x =>
    unfold lockProjectMutation at hlock
    split at hlock
    · cases hlock
      exact .inl rfl
    · simp at hlock
  | ok _ =>
    cases hassert : db.assertHostnameAvailable q n with
    | ok _ => exact absurd hp ((assertHostnameAvailable_ok hassert).not_holds hpq)
    | error x =>
      unfold assertHostnameAvailable at hassert
      split at hassert
      · cases hassert
        exact .inr rfl
      · simp at hassert

end RouteDb

namespace RouteCall

open RouteDb

variable {db db' : RouteDb} {now : ℕ → Time} {call : RouteCall} {claim : Option PublicRouteJobClaim}

/-- A finished claim leaves a row with names that it held before. -/
theorem mem_hostnames_of_finish {row row' : RouteRow} {n : String} {c : Prop}
    (hrequest : row'.request = row.request)
    (happlied : row'.appliedHostname = row.appliedHostname
      ∨ c ∧ row'.appliedHostname = row.requestedHostname) (hn : n ∈ row'.hostnames) :
    n ∈ row.hostnames := by
  simp only [RouteRow.request, RouteRequest.mk.injEq] at hrequest
  rcases hn with hn | hn
  · exact .inl (hrequest.2.2.symm.trans hn)
  · rcases happlied with happlied | ⟨-, happlied⟩
    · exact .inr (happlied.symm.trans hn)
    · rw [happlied, RouteRow.requestedHostname] at hn
      split at hn
      · exact .inl (Option.some.inj hn)
      · cases hn

/-- No commit makes two projects hold one host name. -/
theorem Commits.hostnamesDisjoint (h : Commits db db' now call claim)
    (hd : db.HostnamesDisjoint) : db'.HostnamesDisjoint := by
  cases h with
  | request p hc =>
    rcases hc with rfl | ⟨row, job, hw, -, -, -, hprev⟩
    · exact hd
    refine hd.writes hw fun n hn ↦ ?_
    cases hold : db.routes.lookup p with
    | none =>
      rw [hold] at hprev
      rcases hn with rfl | hn
      · exact .inr hprev.2
      · rw [hprev.1] at hn
        cases hn
    | some old =>
      rw [hold] at hprev
      obtain ⟨-, -, happlied, hhostname⟩ := hprev
      rcases hn with rfl | hn
      · exact hhostname.imp_left fun heq ↦ ⟨old, hold, .inl heq.symm⟩
      · exact .inl ⟨old, hold, .inr (happlied.symm.trans hn)⟩
  | claimNext hc =>
    cases claim with
    | none => exact hc ▸ hd
    | some claim =>
      obtain ⟨-, -, old, row, job, hold, rfl, -, -, -, -, -, -, -, hw⟩ := hc
      exact hd.writes hw fun n hn ↦ .inl ⟨old, hold, hn⟩
  | renew hc =>
    obtain ⟨job, row, -, hr, -, -, -, hw⟩ := renew_ok hc
    exact hd.writes hw fun n hn ↦ .inl ⟨row, hr, hn⟩
  | finish _ hc hroute _ _ happlied =>
    obtain ⟨job, row, -, hr, -, -, hw⟩ := hc.exists_rows
    exact hd.writes hw fun n hn ↦
      .inl ⟨row, hr, mem_hostnames_of_finish (hroute row) (happlied row) hn⟩
  | wake hc =>
    rcases wakePending_ok hc with rfl | ⟨job, row, -, hr, -, -, hw⟩
    · exact hd
    · exact hd.writes hw fun n hn ↦ .inl ⟨row, hr, hn⟩

/-- Only the completion of a claim takes a host name out of service. -/
theorem Commits.serves (h : Commits db db' now call claim) {p : Uuid} {n : String}
    (hs : db.Serves p n) :
    db'.Serves p n ∨ ∃ claim, call = .complete claim ∧ claim.route.projectId = p := by
  obtain ⟨old, hold, hn⟩ := hs
  have key : ∀ q row job, db.Writes db' q row job →
      (q = p → row.appliedHostname = old.appliedHostname) → db'.Serves p n := by
    intro q row job hw hrow
    by_cases hq : p = q
    · exact ⟨row, by rw [hw.routes, if_pos hq], (hrow hq.symm).trans hn⟩
    · exact ⟨old, by rw [hw.routes, if_neg hq, hold], hn⟩
  cases h with
  | request q hc =>
    rcases hc with rfl | ⟨row, job, hw, -, -, -, hprev⟩
    · exact .inl ⟨old, hold, hn⟩
    refine .inl (key q row job hw fun hq ↦ ?_)
    rw [hq, hold] at hprev
    exact hprev.2.2.1
  | claimNext hc =>
    cases claim with
    | none => exact .inl (hc ▸ ⟨old, hold, hn⟩)
    | some claim =>
      obtain ⟨-, -, old', row, job, hold', rfl, -, -, -, -, -, -, -, hw⟩ := hc
      refine .inl (key _ _ job hw fun hq ↦ ?_)
      obtain rfl : old' = old := Option.some.inj (hold'.symm.trans (hq ▸ hold))
      rfl
  | renew hc =>
    obtain ⟨job, row, -, hr, -, -, -, hw⟩ := renew_ok hc
    refine .inl (key _ _ _ hw fun hq ↦ ?_)
    obtain rfl : row = old := Option.some.inj (hr.symm.trans (hq ▸ hold))
    rfl
  | @finish _ claim _ _ _ hc _ _ _ happlied =>
    obtain ⟨job, row, -, hr, -, -, hw⟩ := hc.exists_rows
    by_cases hq : claim.route.projectId = p
    · rcases happlied row with happlied | ⟨hcall, -⟩
      · refine .inl (key _ _ _ hw fun hq ↦ ?_)
        obtain rfl : row = old := Option.some.inj (hr.symm.trans (hq ▸ hold))
        exact happlied
      · exact .inr ⟨claim, hcall, hq⟩
    · exact .inl (key _ _ _ hw fun h ↦ absurd h hq)
  | wake hc =>
    rcases wakePending_ok hc with rfl | ⟨job, row, -, hr, -, -, hw⟩
    · exact .inl ⟨old, hold, hn⟩
    · refine .inl (key _ _ _ hw fun hq ↦ ?_)
      obtain rfl : row = old := Option.some.inj (hr.symm.trans (hq ▸ hold))
      rfl

end RouteCall

namespace RouteHistory

variable {h h' : RouteHistory} {p q : Uuid} {n : String}

theorem hostnamesDisjoint_step (hs : Step h h') (hd : h.db.HostnamesDisjoint) :
    h'.db.HostnamesDisjoint := by
  cases hs with
  | call c now hc =>
    unfold RouteHistory.after
    split
    · exact (RouteCall.exec_ok ‹_›).hostnamesDisjoint hd
    · exact hd
  | project projects => exact hd

theorem hostnamesDisjoint_steps (hs : Relation.ReflTransGen Step h h')
    (hd : h.db.HostnamesDisjoint) : h'.db.HostnamesDisjoint := by
  induction hs with
  | refl => exact hd
  | tail _ hstep ih => exact hostnamesDisjoint_step hstep ih

theorem Reachable.hostnamesDisjoint (hr : Reachable h) : h.db.HostnamesDisjoint := by
  obtain ⟨h₀, ⟨hroutes, -, -⟩, hsteps⟩ := hr
  refine hostnamesDisjoint_steps hsteps fun p q a b _ ha _ ↦ ?_
  rw [hroutes] at ha
  exact absurd ha (by simp)

/-- Between two histories a claim of the project has been completed, and the host name has gone out
of service with it. -/
def Released (h h' : RouteHistory) (p : Uuid) (n : String) : Prop :=
  ∃ h₁ claim now, Relation.ReflTransGen Step h h₁ ∧ h₁.Admissible (.complete claim)
    ∧ claim.route.projectId = p ∧ h₁.db.Serves p n
    ∧ ¬(h₁.after (.complete claim) now).db.Serves p n
    ∧ Relation.ReflTransGen Step (h₁.after (.complete claim) now) h'

theorem serves_step (hs : Step h h') (hserves : h.db.Serves p n) :
    h'.db.Serves p n ∨ ∃ claim now, h.Admissible (.complete claim) ∧ claim.route.projectId = p
      ∧ h' = h.after (.complete claim) now := by
  cases hs with
  | call c now hc =>
    cases hexec : c.exec now h.db with
    | error x => exact .inl (by rw [RouteHistory.after, hexec]; exact hserves)
    | ok r =>
      rcases (RouteCall.exec_ok hexec).serves hserves with hstill | ⟨claim, rfl, hp⟩
      · exact .inl (by rw [RouteHistory.after, hexec]; exact hstill)
      · exact .inr ⟨claim, now, hc, hp, rfl⟩
  | project projects => exact .inl hserves

/-- A host name stays in service until it is released. -/
theorem serves_steps (hs : Relation.ReflTransGen Step h h') (hserves : h.db.Serves p n) :
    h'.db.Serves p n ∨ Released h h' p n := by
  induction hs with
  | refl => exact .inl hserves
  | @tail h₁ h₂ hsteps hstep ih =>
    rcases ih with hserves₁ | ⟨h₀, claim, now, hbefore, hc, hp, hserves₀, hnot, hrest⟩
    · by_cases hstill : h₂.db.Serves p n
      · exact .inl hstill
      · obtain ⟨claim, now, hc, hp, rfl⟩ := (serves_step hstep hserves₁).resolve_left hstill
        exact .inr ⟨h₁, claim, now, hsteps, hc, hp, hserves₁, hstill, .refl⟩
    · exact .inr ⟨h₀, claim, now, hbefore, hc, hp, hserves₀, hnot, hrest.tail hstep⟩

/-- **A host name belongs to one project.** In every reachable history the host names of two projects
are disjoint; a name that one project is served under cannot be requested for another one; and
another project holds it in a later history only after a completed claim of the first one has
released it. -/
theorem reachable_hostnames_disjoint (hr : Reachable h) :
    (∀ p q a b, p ≠ q → h.db.routes.lookup p = some a → h.db.routes.lookup q = some b →
      Disjoint a.hostnames b.hostnames)
    ∧ (∀ p q n, p ≠ q → h.db.Serves p n → ∀ subdomain now,
      h.db.setEnabled q subdomain n now = .error .publicRouteProjectDeleting
        ∨ h.db.setEnabled q subdomain n now = .error .publicRouteConflict)
    ∧ ∀ h' p q n, p ≠ q → h.db.Serves p n → Relation.ReflTransGen Step h h' → h'.db.Holds q n →
      Released h h' p n := by
  have hd := hr.hostnamesDisjoint
  refine ⟨hd, fun p q n hpq hserves subdomain now ↦ ?_, fun h' p q n hpq hserves hsteps hq ↦ ?_⟩
  · exact RouteDb.setEnabled_of_holds hpq hserves.holds subdomain now
  · refine (serves_steps hsteps hserves).resolve_left fun hstill ↦ ?_
    exact (hostnamesDisjoint_steps hsteps hd).not_holds hpq hstill.holds hq

/-- The claim has been completed: the first project is served. -/
def sampleServed : RouteHistory := sampleClaimed.after (.complete sampleClaim) fun i ↦ 5 + i

theorem reachable_sampleServed : Reachable sampleServed := by
  obtain ⟨h₀, hinit, hsteps⟩ := reachable_sampleClaimed
  refine ⟨h₀, hinit, hsteps.tail (.call _ _ _ ⟨?_, ?_⟩)⟩
  · intro claim h
    cases h
    rw [show sampleClaimed.issued = [sampleClaim] by rfl]
    exact List.mem_singleton_self _
  · intro workerId d token locked h
    cases h

/-- While it is served, no other project can ask for its host name. -/
theorem reachable_hostnames_disjoint_sample : sampleServed.db.Serves (.ofNat 1) "app.example"
    ∧ (sampleServed.db.setEnabled (.ofNat 3) "app" "app.example" 9 = .error .publicRouteProjectDeleting
      ∨ sampleServed.db.setEnabled (.ofNat 3) "app" "app.example" 9 = .error .publicRouteConflict) := by
  have hserves : sampleServed.db.Serves (.ofNat 1) "app.example" := ⟨_, rfl, rfl⟩
  exact ⟨hserves, (reachable_hostnames_disjoint reachable_sampleServed).2.1 _ _ _ (by decide) hserves
    _ _⟩

end RouteHistory

end Heimdall
