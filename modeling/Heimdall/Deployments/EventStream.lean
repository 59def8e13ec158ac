import Heimdall.Deployments.History
import Heimdall.Effect.Log

/-!
# The deployment event stream

A subscription follows the events of one deployment: it delivers what is buffered, refills the buffer
from the rows after its cursor, and when there are none asks whether the deployment has ended. Each
of these is a query of its own, so transactions commit in between. `EventStream` puts the tables and
one subscription next to each other, and a step is either a transaction or one query of `receive`.

## Order

The numbers of one deployment's events increase in the order of the commits (`Numbered`), although
those of different deployments need not, because each number is drawn under the lock of its
deployment. So rows that appear after a read have higher numbers than the rows that were read.

## The end

`receive` first finds no event and then finds that the deployment has ended. A transaction that ends
the deployment between the two queries has appended an event the first one did not see
(`EndsUnseen`), and the stream is ended without it. In a run without such a commit the end comes
after the last event.
-/

namespace Heimdall

namespace DeploymentDb

/-- The events of a deployment, in the order of their commits. -/
def eventsOf (db : DeploymentDb) (d : Uuid) : List DeploymentEvent :=
  db.events.filter fun e ↦ e.deploymentId = d

/-- The deployment has ended. -/
def Ended (db : DeploymentDb) (d : Uuid) : Prop :=
  ∃ row, db.deployments.lookup d = some row ∧ row.status.isTerminal = true

end DeploymentDb

/-! ## Numbers -/

/-- A call of the reconciliation, which works on deployments that have ended. -/
def DeploymentCall.isReconciliation : DeploymentCall → Bool
  | .recordReconciliationDiagnostics _ _ | .reconcileSucceeded _ => true
  | _ => false

/-- The events a call appends to a deployment; to one that has ended, none. -/
theorem DeploymentCall.Commits.eventsOf {db db' : DeploymentDb} {eventId : ℕ} {now : Time}
    {call : DeploymentCall} {claim : Option DeploymentJobClaim}
    (h : Commits db db' eventId now call claim) (hdb : db.Consistent)
    (hqueue : call.isReconciliation = false) (d : Uuid) (hended : db.Ended d) :
    db'.eventsOf d = db.eventsOf d := by
  obtain ⟨row, hrow, hterminal⟩ := hended
  have key : ∀ q row job events, db.Writes db' q row job events →
      DeploymentDb.EventOf q eventId events → q ≠ d → db'.eventsOf d = db.eventsOf d := by
    intro q row job events hw hevent hq
    rw [DeploymentDb.eventsOf, hw.events, List.filter_append, DeploymentDb.eventsOf,
      List.append_right_eq_self, List.filter_eq_nil_iff]
    intro e he
    simp [(hevent.2 e he).1, hq]
  cases h with
  | idle h => rw [h]
  | create hc => rw [DeploymentDb.eventsOf, hc.writes.events, List.append_nil, DeploymentDb.eventsOf]
  | claimNext hc =>
    refine key _ _ _ _ hc.writes hc.event fun hq ↦ ?_
    obtain rfl := Option.some.inj (hc.found.symm.trans (hq ▸ hrow))
    rw [hc.processing] at hterminal
    cases hterminal
  | work _ hc =>
    refine key _ _ _ _ hc.writes hc.event fun hq ↦ ?_
    obtain rfl := Option.some.inj (hc.found.symm.trans (hq ▸ hrow))
    have hdone := (hdb.agree _ _ _ hc.found hc.foundJob).done.mpr
      (DeploymentStatus.isTerminal_iff.mp hterminal)
    rw [(DeploymentDb.holdsClaim_iff.mp hc.held).1] at hdone
    cases hdone
  | reconcile hcall hc =>
    rcases hcall with ⟨⟨report, rfl⟩, -⟩ | ⟨rfl, -⟩ <;> simp [isReconciliation] at hqueue

/-- A call that ends a deployment appends an event to it. -/
theorem DeploymentCall.Commits.event_of_ends {db db' : DeploymentDb} {eventId : ℕ} {now : Time}
    {call : DeploymentCall} {claim : Option DeploymentJobClaim}
    (h : Commits db db' eventId now call claim) (hqueue : call.isReconciliation = false) {d : Uuid}
    (hnot : ¬db.Ended d) (hended : db'.Ended d) :
    ∃ e, db'.events = db.events ++ [e] ∧ e.deploymentId = d := by
  obtain ⟨row, hrow, hterminal⟩ := hended
  -- the call writes the row of this deployment
  have key : ∀ q r job events, db.Writes db' q r job events → q = d ∧ r = row := by
    intro q r job events hw
    rw [hw.deployments] at hrow
    split_ifs at hrow with hq
    · exact ⟨hq.symm, Option.some.inj hrow⟩
    · exact absurd ⟨row, hrow, hterminal⟩ hnot
  cases h with
  | idle h => exact absurd ⟨row, h ▸ hrow, hterminal⟩ hnot
  | create hc =>
    obtain ⟨-, rfl⟩ := key _ _ _ _ hc.writes
    rw [hc.status] at hterminal
    cases hterminal
  | claimNext hc =>
    obtain ⟨-, rfl⟩ := key _ _ _ _ hc.writes
    rw [hc.status] at hterminal
    cases hterminal
  | @work _ claim old _ _ _ events _ hc =>
    obtain ⟨rfl, rfl⟩ := key _ _ _ _ hc.writes
    have hopen : old.status.isTerminal = false := by
      by_contra hne
      exact hnot ⟨old, hc.found, by simpa using hne⟩
    have hnonempty := hc.terminal hopen hterminal
    have hevents := hc.writes.events
    match events, hc.event with
    | [], _ => exact absurd rfl hnonempty
    | [e], hevent => exact ⟨e, hevents, (hevent.2 e (List.mem_singleton_self e)).1⟩
    | _ :: _ :: _, hevent => exact absurd hevent.1 (by simp)
  | reconcile hcall hc =>
    rcases hcall with ⟨⟨report, rfl⟩, -⟩ | ⟨rfl, -⟩ <;> simp [isReconciliation] at hqueue

namespace DeploymentHistory

/-- The numbers of events and of open transactions. -/
structure Numbered (h : DeploymentHistory) : Prop where
  increasing : h.db.events.Pairwise fun a b ↦ a.deploymentId = b.deploymentId → a.id < b.id
  eventBound : ∀ e ∈ h.db.events, e.id ≤ h.sequence
  drawBound : ∀ x ∈ h.draws, x.2 ≤ h.sequence
  ahead : ∀ x ∈ h.draws, ∀ e ∈ h.db.events, e.deploymentId = x.1 → e.id < x.2
  single : ∀ x ∈ h.draws, ∀ y ∈ h.draws, x.1 = y.1 → x = y

namespace Numbered

variable {h h' : DeploymentHistory}

theorem initial (hi : Initial h) : Numbered h := by
  constructor <;> simp [hi.events, hi.draws]

theorem after (hn : Numbered h) (hf : Fenced h) {call : DeploymentCall} {eventId : ℕ} {now : Time}
    (hc : h.Admissible call eventId now) : Numbered (h.after call eventId now) := by
  unfold DeploymentHistory.after
  split
  · rename_i claim db hexec
    have hdraws : ∀ x ∈ h.draws.filter fun x ↦ x.2 ≠ eventId, x ∈ h.draws ∧ x.2 ≠ eventId := by
      intro x hx
      simpa using List.mem_filter.mp hx
    -- without an event only the draws shrink
    have hsame : db.events = h.db.events → Numbered { h with
        db := db, issued := claim.toList ++ h.issued,
        draws := h.draws.filter fun x ↦ x.2 ≠ eventId } := by
      intro heq
      constructor
      · simpa only [heq] using hn.increasing
      · simpa only [heq] using hn.eventBound
      · exact fun x hx ↦ hn.drawBound x (hdraws x hx).1
      · simpa only [heq] using fun x hx ↦ hn.ahead x (hdraws x hx).1
      · exact fun x hx y hy ↦ hn.single x (hdraws x hx).1 y (hdraws y hy).1
    rcases (DeploymentCall.exec_ok hf.consistent hexec).update hf.consistent with
      rfl | ⟨d, row, job, events, hu⟩
    · exact hsame rfl
    · have hevents := hu.writes.events
      match events, hu.event with
      | [], _ => exact hsame (by rw [hevents, List.append_nil])
      | [e], hevent =>
        obtain ⟨hd, hid⟩ := hevent.2 e (List.mem_singleton_self e)
        have hdrawn := hc.drawn claim db e hexec hevents
        rw [hd, hid] at hdrawn
        constructor
        · simp only [hevents]
          rw [List.pairwise_append]
          refine ⟨hn.increasing, List.pairwise_singleton _ _, fun a ha b hb hsame ↦ ?_⟩
          obtain rfl := List.mem_singleton.mp hb
          rw [hid]
          exact hn.ahead _ hdrawn a ha (hsame.trans hd)
        · simp only [hevents]
          intro a ha
          rcases List.mem_append.mp ha with ha | ha
          · exact hn.eventBound a ha
          · obtain rfl := List.mem_singleton.mp ha
            exact hid ▸ hn.drawBound _ hdrawn
        · exact fun x hx ↦ hn.drawBound x (hdraws x hx).1
        · simp only [hevents]
          intro x hx a ha hsame
          rcases List.mem_append.mp ha with ha | ha
          · exact hn.ahead x (hdraws x hx).1 a ha hsame
          · obtain rfl := List.mem_singleton.mp ha
            have hx' := hn.single x (hdraws x hx).1 _ hdrawn (hsame.symm.trans hd)
            exact absurd (congrArg Prod.snd hx') (hdraws x hx).2
        · exact fun x hx y hy ↦ hn.single x (hdraws x hx).1 y (hdraws y hy).1
      | _ :: _ :: _, hevent => exact absurd hevent.1 (by simp)
  · exact hn

theorem step (hn : Numbered h) (hf : Fenced h) (hs : Step h h') : Numbered h' := by
  cases hs with
  | draw d hlock =>
    constructor
    · exact hn.increasing
    · exact fun e he ↦ (hn.eventBound e he).trans (Nat.le_succ _)
    · intro x hx
      rcases List.mem_cons.mp hx with rfl | hx
      · exact le_rfl
      · exact (hn.drawBound x hx).trans (Nat.le_succ _)
    · intro x hx e he hsame
      rcases List.mem_cons.mp hx with rfl | hx
      · exact Nat.lt_succ_of_le (hn.eventBound e he)
      · exact hn.ahead x hx e he hsame
    · intro x hx y hy hsame
      rcases List.mem_cons.mp hx with rfl | hx <;> rcases List.mem_cons.mp hy with rfl | hy
      · rfl
      · exact absurd hsame.symm (hlock y hy)
      · exact absurd hsame (hlock x hx)
      · exact hn.single x hx y hy hsame
  | rollback d =>
    have hdraws : ∀ x ∈ h.draws.filter fun x ↦ x.1 ≠ d, x ∈ h.draws :=
      fun x hx ↦ (List.mem_filter.mp hx).1
    exact ⟨hn.increasing, hn.eventBound, fun x hx ↦ hn.drawBound x (hdraws x hx),
      fun x hx ↦ hn.ahead x (hdraws x hx),
      fun x hx y hy ↦ hn.single x (hdraws x hx) y (hdraws y hy)⟩
  | call c eventId now hc => exact hn.after hf hc
  | project projects => exact ⟨hn.increasing, hn.eventBound, hn.drawBound, hn.ahead, hn.single⟩

theorem reachable (hr : Reachable h) : Numbered h := by
  obtain ⟨h₀, hinit, hsteps⟩ := hr
  induction hsteps with
  | refl => exact initial hinit
  | tail hsteps hstep ih => exact ih.step ((Fenced.initial hinit).steps hsteps) hstep

theorem eventsOf_increasing (hn : Numbered h) (d : Uuid) :
    Increasing DeploymentEvent.id (h.db.eventsOf d) := by
  refine List.Pairwise.imp_of_mem ?_ (hn.increasing.filter _)
  intro a b ha hb hlt
  have ha := (List.mem_filter.mp ha).2
  have hb := (List.mem_filter.mp hb).2
  simp only [decide_eq_true_eq] at ha hb
  exact hlt (ha.trans hb.symm)

/-- The query for what comes after a cursor. -/
theorem listEventsAfter_eq (hn : Numbered h) (d : Uuid) (afterId limit : ℕ) :
    h.db.listEventsAfter d afterId limit
      = (entriesAfter DeploymentEvent.id (h.db.eventsOf d) afterId).take limit := by
  have hrows : (h.db.events.filter fun e ↦ e.deploymentId = d ∧ afterId < e.id)
      = entriesAfter DeploymentEvent.id (h.db.eventsOf d) afterId := by
    rw [entriesAfter, DeploymentDb.eventsOf, List.filter_filter]
    refine List.filter_congr fun e _ ↦ ?_
    simp [Bool.and_comm]
  rw [DeploymentDb.listEventsAfter, hrows, List.Pairwise.insertionSort_eq]
  exact ((hn.eventsOf_increasing d).entriesAfter afterId).imp fun h ↦ h.le

end Numbered

end DeploymentHistory

/-! ## The subscription -/

/-- `PostgresDeploymentEventSubscription`. -/
structure EventSubscription where
  deploymentId : Uuid
  cursor : ℕ
  buffer : List DeploymentEvent := []
  closed : Bool := false

/-- Where `receive` is: between two calls, or before one of its queries. The queries are made a second
time after the wait for a notification. -/
inductive ReceivePhase where
  | idle
  | nextEvent (again : Bool)
  | terminal (again : Bool)
  | waiting
deriving DecidableEq

/-- What a call of `receive` ends with. -/
inductive ReceiveResult where
  | event (event : DeploymentEvent)
  | streamEnd (reason : String)
  | nothing
  | unavailable
deriving DecidableEq

/-- The event a call of `receive` returned. -/
def ReceiveResult.event? : ReceiveResult → Option DeploymentEvent
  | .event e => some e
  | _ => none

namespace EventSubscription

/-- `_next_event`. -/
def nextEvent (s : EventSubscription) (db : DeploymentDb) :
    Option DeploymentEvent × EventSubscription :=
  let buffer := if s.buffer = [] then db.listEventsAfter s.deploymentId s.cursor 100 else s.buffer
  match buffer with
  | [] => (none, { s with buffer := [] })
  | event :: rest => (some event, { s with buffer := rest, cursor := event.id })

/-- `_terminal`. -/
def terminal (s : EventSubscription) (db : DeploymentDb) : Except Exc Bool := do
  let deployment ← db.get s.deploymentId
  .ok deployment.status.isTerminal

end EventSubscription

/-- The tables and one subscription, with what it has returned so far. -/
structure EventStream where
  history : DeploymentHistory
  sub : EventSubscription
  phase : ReceivePhase := .idle
  outputs : List ReceiveResult := []

namespace EventStream

/-- The running call of `receive` returns. -/
def returns (s : EventStream) (result : ReceiveResult) : EventStream :=
  { s with phase := .idle, outputs := s.outputs ++ [result] }

/-- One query of `receive`, or its call. -/
def advance (s : EventStream) : EventStream :=
  match s.phase with
  | .idle => if s.sub.closed then s.returns (.streamEnd "STREAM_CLOSED")
    else { s with phase := .nextEvent false }
  | .nextEvent again =>
    match s.sub.nextEvent s.history.db with
    | (some event, sub) => { s with sub := sub }.returns (.event event)
    | (none, sub) => { s with sub := sub, phase := .terminal again }
  | .terminal again =>
    match s.sub.terminal s.history.db with
    | .error _ => s.returns .unavailable
    | .ok true => s.returns (.streamEnd "DEPLOYMENT_TERMINAL")
    | .ok false => if again then s.returns .nothing else { s with phase := .waiting }
  | .waiting => { s with phase := .nextEvent true }

/-- One step: a transaction of the queue, a query of `receive` that answers or fails, or the end of the
subscription. -/
inductive Step : EventStream → EventStream → Prop
  | history (s : EventStream) (h : DeploymentHistory) (hs : s.history.Step h)
    (hdeployments : h.db.deployments = s.history.db.deployments)
    (hevents : h.db.events = s.history.db.events) : Step s { s with history := h }
  | call (s : EventStream) (c : DeploymentCall) (eventId : ℕ) (now : Time)
    (hc : s.history.Admissible c eventId now) (hqueue : c.isReconciliation = false) :
    Step s { s with history := s.history.after c eventId now }
  | receive (s : EventStream) : Step s s.advance
  | raises (s : EventStream) (hphase : s.phase ≠ .idle) : Step s (s.returns .unavailable)
  | close (s : EventStream) (hphase : s.phase = .idle) :
    Step s { s with sub := { s.sub with closed := true } }

/-- The deployment that is followed has ended. -/
def Ended (s : EventStream) : Prop := s.history.db.Ended s.sub.deploymentId

/-- A transaction ends the deployment between the two queries of `receive`. -/
def EndsUnseen (s s' : EventStream) : Prop :=
  (∃ again, s.phase = .terminal again) ∧ ¬s.Ended ∧ s'.Ended

/-- A subscription that has just been opened. -/
structure Opened (s : EventStream) (afterId : ℕ) : Prop where
  reachable : s.history.Reachable
  cursor : s.sub.cursor = afterId
  buffer : s.sub.buffer = []
  phase : s.phase = .idle
  outputs : s.outputs = []

/-- The events that have been delivered, in order. -/
def delivered (s : EventStream) : List DeploymentEvent := s.outputs.filterMap ReceiveResult.event?

/-- The events a subscription opened at `afterId` is to deliver. -/
def expected (s : EventStream) (afterId : ℕ) : List DeploymentEvent :=
  entriesAfter DeploymentEvent.id (s.history.db.eventsOf s.sub.deploymentId) afterId

/-! ## What every run keeps -/

/-- The deliveries follow the log. -/
structure Following (s : EventStream) (afterId : ℕ) : Prop where
  fenced : s.history.Fenced
  numbered : s.history.Numbered
  cursor : s.sub.cursor = cursorAfter DeploymentEvent.id afterId s.delivered
  taken : s.delivered ++ s.sub.buffer <+: s.expected afterId

/-- Nothing is left to deliver when the deployment is found to have ended. -/
structure Drained (s : EventStream) (afterId : ℕ) : Prop where
  checking : ∀ again, s.phase = .terminal again → s.Ended → s.delivered = s.expected afterId
  finished : .streamEnd "DEPLOYMENT_TERMINAL" ∈ s.outputs →
    s.Ended ∧ s.delivered = s.expected afterId

variable {s s' : EventStream} {afterId : ℕ}

@[simp] theorem delivered_returns {result : ReceiveResult} :
    (s.returns result).delivered = s.delivered ++ result.event?.toList := by
  cases result <;> simp [delivered, returns, ReceiveResult.event?]

@[simp] theorem sub_returns {result : ReceiveResult} : (s.returns result).sub = s.sub := rfl

@[simp] theorem expected_returns {result : ReceiveResult} :
    (s.returns result).expected afterId = s.expected afterId := rfl

@[simp] theorem ended_returns {result : ReceiveResult} : (s.returns result).Ended ↔ s.Ended :=
  Iff.rfl

theorem mem_outputs_returns {result : ReceiveResult} {reason : String} :
    .streamEnd reason ∈ (s.returns result).outputs
      ↔ .streamEnd reason ∈ s.outputs ∨ result = .streamEnd reason := by
  simp [returns, eq_comm]

theorem following_opened (ho : s.Opened afterId) : s.Following afterId where
  fenced := .reachable ho.reachable
  numbered := .reachable ho.reachable
  cursor := by simp [delivered, ho.outputs, ho.cursor]
  taken := by simp [delivered, ho.outputs, ho.buffer]

theorem drained_opened (ho : s.Opened afterId) : s.Drained afterId where
  checking again hphase := by simp [ho.phase] at hphase
  finished hmem := by simp [ho.outputs] at hmem

namespace Following

/-- What `_next_event` finds to deliver is the next part of what is expected. -/
theorem refill (hf : s.Following afterId) {buffer : List DeploymentEvent}
    (hbuffer : buffer = if s.sub.buffer = [] then
      s.history.db.listEventsAfter s.sub.deploymentId s.sub.cursor 100 else s.sub.buffer) :
    s.delivered ++ buffer <+: s.expected afterId
      ∧ (buffer = [] → s.delivered = s.expected afterId) := by
  split_ifs at hbuffer with hempty
  · obtain ⟨rest, hrest⟩ := hf.taken
    rw [hempty, List.append_nil] at hrest
    have hafter : entriesAfter DeploymentEvent.id (s.history.db.eventsOf s.sub.deploymentId)
        s.sub.cursor = rest := by
      rw [hf.cursor]
      exact entriesAfter_cursor (hf.numbered.eventsOf_increasing _) hrest.symm
    rw [hf.numbered.listEventsAfter_eq, hafter] at hbuffer
    rw [hbuffer, ← hrest]
    refine ⟨(List.prefix_append_right_inj _).mpr (List.take_prefix 100 rest), fun h ↦ ?_⟩
    have hnil : rest = [] := by simpa using h
    simp [hnil]
  · exact ⟨hbuffer ▸ hf.taken, fun h ↦ absurd (hbuffer.symm.trans h) hempty⟩

/-- Transactions add to what is expected at its end. -/
theorem grow (hf : s.Following afterId) {h : DeploymentHistory} {new : List DeploymentEvent}
    (hfenced : h.Fenced) (hnumbered : h.Numbered) (hevents : h.db.events = s.history.db.events ++ new) :
    Following { s with history := h } afterId where
  fenced := hfenced
  numbered := hnumbered
  cursor := hf.cursor
  taken := by
    refine hf.taken.trans ?_
    rw [expected, expected, DeploymentDb.eventsOf, DeploymentDb.eventsOf, hevents,
      List.filter_append, entriesAfter_append]
    exact List.prefix_append _ _

/-- A result that is no event leaves the deliveries alone. -/
theorem returns (hf : s.Following afterId) {result : ReceiveResult} (h : result.event? = none) :
    (s.returns result).Following afterId where
  fenced := hf.fenced
  numbered := hf.numbered
  cursor := by simpa [h] using hf.cursor
  taken := by simpa [h] using hf.taken

/-- The first buffered event is delivered. -/
theorem deliver (hf : s.Following afterId) {event : DeploymentEvent} {rest : List DeploymentEvent}
    (h : s.delivered ++ event :: rest <+: s.expected afterId) :
    Following ({ s with sub := { s.sub with buffer := rest, cursor := event.id } }.returns
      (.event event)) afterId where
  fenced := hf.fenced
  numbered := hf.numbered
  cursor := by
    rw [delivered_returns]
    exact (cursorAfter_append DeploymentEvent.id afterId s.delivered event).symm
  taken := by
    rw [delivered_returns]
    show s.delivered ++ [event] ++ rest <+: s.expected afterId
    simpa using h

theorem advance (hf : s.Following afterId) : s.advance.Following afterId := by
  unfold EventStream.advance
  split
  · split
    · exact hf.returns rfl
    · exact ⟨hf.fenced, hf.numbered, hf.cursor, hf.taken⟩
  · obtain ⟨hbegin, -⟩ := hf.refill rfl
    unfold EventSubscription.nextEvent
    simp only
    split
    · rename_i event sub heq
      split at heq
      · cases heq
      · rename_i first rest hbuffer
        cases heq
        rw [hbuffer] at hbegin
        exact hf.deliver hbegin
    · rename_i sub heq
      split at heq
      · rename_i hbuffer
        cases heq
        rw [hbuffer] at hbegin
        exact ⟨hf.fenced, hf.numbered, hf.cursor, hbegin⟩
      · cases heq
  · split
    · exact hf.returns rfl
    · exact hf.returns rfl
    · split
      · exact hf.returns rfl
      · exact ⟨hf.fenced, hf.numbered, hf.cursor, hf.taken⟩
  · exact ⟨hf.fenced, hf.numbered, hf.cursor, hf.taken⟩

/-- Every step keeps the deliveries in line with the log. -/
theorem step (hf : s.Following afterId) (hs : Step s s') : s'.Following afterId := by
  cases hs with
  | history h hstep hdeployments hevents =>
    exact hf.grow (hf.fenced.step hstep) (hf.numbered.step hf.fenced hstep)
      (by rw [hevents, List.append_nil])
  | call c eventId now hc hqueue =>
    obtain ⟨new, hnew⟩ : ∃ new, (s.history.after c eventId now).db.events
        = s.history.db.events ++ new := by
      unfold DeploymentHistory.after
      split
      · rename_i claim db hexec
        rcases (DeploymentCall.exec_ok hf.fenced.consistent hexec).update hf.fenced.consistent with
          rfl | ⟨d, row, job, events, hu⟩
        · exact ⟨[], (List.append_nil _).symm⟩
        · exact ⟨events, hu.writes.events⟩
      · exact ⟨[], (List.append_nil _).symm⟩
    exact hf.grow (hf.fenced.after hc) (hf.numbered.after hf.fenced hc) hnew
  | receive => exact hf.advance
  | raises hphase => exact hf.returns rfl
  | close hphase => exact ⟨hf.fenced, hf.numbered, hf.cursor, hf.taken⟩

end Following

namespace Drained

/-- Once the deployment has ended no transaction changes what is expected. -/
theorem expected_call (hf : s.Following afterId) {c : DeploymentCall} {eventId : ℕ} {now : Time}
    (hqueue : c.isReconciliation = false) (hended : s.Ended) :
    expected { s with history := s.history.after c eventId now } afterId = s.expected afterId
      ∧ Ended { s with history := s.history.after c eventId now } := by
  unfold DeploymentHistory.after
  split
  · rename_i claim db hexec
    have hcommits := DeploymentCall.exec_ok hf.fenced.consistent hexec
    refine ⟨?_, ?_⟩
    · rw [expected, expected]
      exact congrArg (entriesAfter DeploymentEvent.id · afterId)
        (hcommits.eventsOf hf.fenced.consistent hqueue _ hended)
    · obtain ⟨row, hrow, hterminal⟩ := hended
      rcases hcommits.ended hrow hterminal with hsame | ⟨-, -, -, -, rfl⟩
      · exact ⟨row, hsame, hterminal⟩
      · simp [DeploymentCall.isReconciliation] at hqueue
  · exact ⟨rfl, hended⟩

theorem returns (hd : s.Drained afterId) {result : ReceiveResult} (hevent : result.event? = none)
    (hend : result = .streamEnd "DEPLOYMENT_TERMINAL" → s.Ended ∧ s.delivered = s.expected afterId) :
    (s.returns result).Drained afterId where
  checking again hphase := by simp [EventStream.returns] at hphase
  finished hmem := by
    simp only [delivered_returns, hevent, Option.toList_none, List.append_nil]
    exact (mem_outputs_returns.mp hmem).elim hd.finished hend

theorem advance (hd : s.Drained afterId) (hf : s.Following afterId) : s.advance.Drained afterId := by
  unfold EventStream.advance
  split
  · split
    · exact hd.returns rfl (by simp)
    · exact ⟨fun again hphase ↦ by simp at hphase, hd.finished⟩
  · obtain ⟨hbegin, hempty⟩ := hf.refill rfl
    unfold EventSubscription.nextEvent
    simp only
    split
    · rename_i event sub heq
      split at heq
      · cases heq
      · rename_i first rest hbuffer
        cases heq
        refine ⟨fun again hphase ↦ by simp [EventStream.returns] at hphase, fun hmem ↦ ?_⟩
        -- after the end nothing is left to deliver
        have hfinished := (hd.finished ((mem_outputs_returns.mp hmem).resolve_right (by simp))).2
        rw [hbuffer, ← hfinished] at hbegin
        exact absurd hbegin.length_le (by simp)
    · rename_i sub heq
      split at heq
      · rename_i hbuffer
        cases heq
        exact ⟨fun _ _ _ ↦ hempty hbuffer, hd.finished⟩
      · cases heq
  · rename_i again hphase
    split
    · exact hd.returns rfl (by simp)
    · rename_i hterminal
      refine hd.returns rfl fun _ ↦ ?_
      have hended : s.Ended := by
        obtain ⟨row, hrow, hstatus⟩ := bind_eq_ok hterminal
        unfold DeploymentDb.get at hrow
        split at hrow
        · cases hrow
          exact ⟨_, ‹_›, Except.ok.inj hstatus⟩
        · simp at hrow
      exact ⟨hended, hd.checking again hphase hended⟩
    · split
      · exact hd.returns rfl (by simp)
      · exact ⟨fun again hphase ↦ by simp at hphase, hd.finished⟩
  · exact ⟨fun again hphase ↦ by simp at hphase, hd.finished⟩

/-- A step that does not end the deployment behind the back of `receive` keeps the end honest. -/
theorem step (hd : s.Drained afterId) (hf : s.Following afterId) (hs : Step s s')
    (hseen : ¬EndsUnseen s s') : s'.Drained afterId := by
  cases hs with
  | history h hstep hdeployments hevents =>
    have hexpected : expected { s with history := h } afterId = s.expected afterId := by
      rw [expected, expected, DeploymentDb.eventsOf, DeploymentDb.eventsOf, hevents]
    have hended : Ended { s with history := h } ↔ s.Ended := by
      unfold Ended DeploymentDb.Ended
      rw [hdeployments]
    exact ⟨fun again hphase h ↦ hexpected ▸ hd.checking again hphase (hended.mp h),
      fun hmem ↦ ⟨hended.mpr (hd.finished hmem).1, hexpected ▸ (hd.finished hmem).2⟩⟩
  | call c eventId now hc hqueue =>
    by_cases hended : s.Ended
    · obtain ⟨hexpected, hstill⟩ := expected_call hf hqueue hended
      exact ⟨fun again hphase _ ↦ hexpected ▸ hd.checking again hphase hended,
        fun hmem ↦ ⟨hstill, hexpected ▸ (hd.finished hmem).2⟩⟩
    · exact ⟨fun again hphase h ↦ absurd ⟨⟨again, hphase⟩, hended, h⟩ hseen,
        fun hmem ↦ absurd (hd.finished hmem).1 hended⟩
  | receive => exact hd.advance hf
  | raises hphase => exact hd.returns rfl (by simp)
  | close hphase => exact ⟨hd.checking, hd.finished⟩

end Drained

/-- A read that finds an undelivered event delivers the first one. -/
theorem Following.delivers_next (hf : s.Following afterId) {again : Bool}
    (hphase : s.phase = .nextEvent again) {e : DeploymentEvent} {rest : List DeploymentEvent}
    (hleft : s.expected afterId = s.delivered ++ e :: rest) :
    s.advance.outputs = s.outputs ++ [.event e] := by
  obtain ⟨hbegin, hempty⟩ := hf.refill rfl
  unfold EventStream.advance EventSubscription.nextEvent
  simp only [hphase]
  split
  · rename_i event sub heq
    split at heq
    · cases heq
    · rename_i first buffer hbuffer
      cases heq
      rw [hbuffer, hleft, List.prefix_append_right_inj, List.cons_prefix_cons] at hbegin
      rw [hbegin.1]
      rfl
  · rename_i sub heq
    split at heq
    · rename_i hbuffer
      rw [hempty hbuffer] at hleft
      simp at hleft
    · cases heq

/-! ## Runs -/

theorem advance_frame : s.advance.history = s.history
    ∧ s.advance.sub.deploymentId = s.sub.deploymentId := by
  unfold advance
  split
  · split <;> exact ⟨rfl, rfl⟩
  · unfold EventSubscription.nextEvent
    simp only
    split
    · rename_i event sub heq
      split at heq <;> cases heq
      exact ⟨rfl, rfl⟩
    · rename_i sub heq
      split at heq <;> cases heq
      exact ⟨rfl, rfl⟩
  · split
    · exact ⟨rfl, rfl⟩
    · exact ⟨rfl, rfl⟩
    · split <;> exact ⟨rfl, rfl⟩
  · exact ⟨rfl, rfl⟩

theorem deploymentId_step (hs : Step s s') : s'.sub.deploymentId = s.sub.deploymentId := by
  cases hs with
  | receive => exact advance_frame.2
  | _ => rfl

/-- A query ends nothing. -/
theorem not_endsUnseen_advance : ¬EndsUnseen s s.advance := by
  rintro ⟨-, hnot, hended⟩
  obtain ⟨hhistory, hid⟩ : s.advance.history = s.history ∧ _ := advance_frame
  rw [Ended, hhistory, hid] at hended
  exact hnot hended

/-- The condition on runs cannot be dropped: after a transaction that ends the deployment between the
two queries, the next query ends the stream, and an event has not been delivered. -/
theorem endsUnseen_misses (hf : s.Following afterId) (hs : Step s s')
    (hunseen : EndsUnseen s s') : .streamEnd "DEPLOYMENT_TERMINAL" ∈ s'.advance.outputs
      ∧ ∃ e ∈ s'.history.db.events, e.deploymentId = s'.sub.deploymentId
        ∧ e ∉ s'.advance.delivered := by
  obtain ⟨⟨again, hphase⟩, hnot, hended⟩ := hunseen
  cases hs with
  | history h hstep hdeployments hevents =>
    unfold Ended DeploymentDb.Ended at hnot hended
    rw [hdeployments] at hended
    exact absurd hended hnot
  | call c eventId now hc hqueue =>
    have hadvance : advance { s with history := s.history.after c eventId now }
        = returns { s with history := s.history.after c eventId now }
          (.streamEnd "DEPLOYMENT_TERMINAL") := by
      obtain ⟨row, hrow, hterminal⟩ := hended
      simp only [advance, hphase, EventSubscription.terminal, DeploymentDb.get, hrow, bind,
        Except.bind, hterminal]
    have hnumbered := hf.numbered.after hf.fenced hc
    rw [hadvance]
    refine ⟨mem_outputs_returns.mpr (.inr rfl), ?_⟩
    cases hexec : c.exec eventId now s.history.db with
    | error x =>
      have hsame : s.history.after c eventId now = s.history := by
        rw [DeploymentHistory.after, hexec]
      rw [hsame] at hended
      exact absurd hended hnot
    | ok r =>
      have hafter : (s.history.after c eventId now).db = r.2 := by
        rw [DeploymentHistory.after, hexec]
      have hcommits := DeploymentCall.exec_ok hf.fenced.consistent hexec
      unfold Ended at hended
      simp only [hafter] at hended ⊢
      obtain ⟨e, hevents, hid⟩ := hcommits.event_of_ends hqueue hnot hended
      have hincreasing := hnumbered.increasing
      rw [hafter, hevents, List.pairwise_append] at hincreasing
      refine ⟨e, by simp [hevents], hid, fun hmem ↦ ?_⟩
      -- what was delivered before comes earlier in the log
      have hdelivered : e ∈ s.delivered := by
        rw [delivered_returns] at hmem
        exact (List.mem_append.mp hmem).resolve_right (by simp [ReceiveResult.event?])
      have hexpected := ((List.prefix_append _ _).trans hf.taken).subset hdelivered
      have hold : e ∈ s.history.db.events :=
        (List.mem_filter.mp (mem_entriesAfter.mp hexpected).1).1
      exact absurd (hincreasing.2.2 e hold e (List.mem_singleton_self e) rfl) (by simp)
  | receive => exact absurd ⟨⟨again, hphase⟩, hnot, hended⟩ not_endsUnseen_advance
  | raises _ => exact absurd hended hnot
  | close _ => exact absurd hended hnot

/-- **The stream follows the log.** In every run of transactions and one subscription in which no
transaction ends the deployment between the two queries of a `receive`: what has been delivered is a
beginning of the events after the opening cursor, in increasing order; a read that finds an
undelivered event delivers the first one; and the stream is ended for a terminal deployment only when
it has ended and every one of its events after the cursor has been delivered. -/
theorem run_delivers {s₀ : EventStream} (ho : s₀.Opened afterId)
    (hrun : Relation.ReflTransGen (fun s s' ↦ Step s s' ∧ ¬EndsUnseen s s') s₀ s) :
    s.sub.deploymentId = s₀.sub.deploymentId
    ∧ s.delivered <+: s.expected afterId
    ∧ s.delivered.Pairwise (fun a b ↦ a.id < b.id)
    ∧ (∀ again e rest, s.phase = .nextEvent again → s.expected afterId = s.delivered ++ e :: rest →
      s.advance.outputs = s.outputs ++ [.event e])
    ∧ (.streamEnd "DEPLOYMENT_TERMINAL" ∈ s.outputs → s.Ended
      ∧ ∀ e ∈ s.history.db.events, e.deploymentId = s.sub.deploymentId → afterId < e.id →
        e ∈ s.delivered) := by
  have hinv : s.sub.deploymentId = s₀.sub.deploymentId ∧ s.Following afterId ∧ s.Drained afterId := by
    induction hrun with
    | refl => exact ⟨rfl, following_opened ho, drained_opened ho⟩
    | tail _ hstep ih =>
      exact ⟨(deploymentId_step hstep.1).trans ih.1, ih.2.1.step hstep.1,
        ih.2.2.step ih.2.1 hstep.1 hstep.2⟩
  obtain ⟨hid, hf, hd⟩ := hinv
  have hbegin : s.delivered <+: s.expected afterId := (List.prefix_append _ _).trans hf.taken
  refine ⟨hid, hbegin, ?_, fun again e rest hphase hleft ↦ hf.delivers_next hphase hleft,
    fun hmem ↦ ?_⟩
  · exact ((hf.numbered.eventsOf_increasing _).entriesAfter afterId).sublist hbegin.sublist
  · obtain ⟨hended, hall⟩ := hd.finished hmem
    refine ⟨hended, fun e he hdeployment hafter ↦ ?_⟩
    rw [hall]
    exact mem_entriesAfter.mpr ⟨List.mem_filter.mpr ⟨he, by simpa using hdeployment⟩, hafter⟩

/-! ### Two runs -/

/-- A subscription to the deployment of the sample history, opened after its first event. -/
def sampleOpened : EventStream where
  history := .sampleClaimed
  sub := { deploymentId := .ofNat 9, cursor := 1 }

theorem opened_sample : sampleOpened.Opened 1 where
  reachable := DeploymentHistory.reachable_sampleClaimed
  cursor := rfl
  buffer := rfl
  phase := rfl
  outputs := rfl

/-- The event of the worker that succeeds. -/
def sampleEvent : DeploymentEvent where
  id := 2
  deploymentId := .ofNat 9
  stage := "SUCCEEDED"
  code := "DEPLOYMENT_SUCCEEDED"
  message := "The preview deployment is active"
  createdAt := 5

/-- A number is drawn for the deployment. -/
def draws (s : EventStream) : EventStream := { s with history := s.history.drawn (.ofNat 9) }

/-- The worker of the sample history succeeds. -/
def succeeds (s : EventStream) : EventStream :=
  { s with history := s.history.after (.succeed DeploymentHistory.sampleClaim) 2 5 }

theorem draws_step (hdraws : s.history.draws = []) : Step s s.draws :=
  .history s _ (.draw _ _ fun x hx ↦ by simp [hdraws] at hx) rfl rfl

theorem succeeds_step (hhistory : s.history = DeploymentHistory.sampleClaimed.drawn (.ofNat 9)) :
    Step s s.succeeds := by
  refine .call s _ _ _ ?_ rfl
  rw [hhistory]
  refine DeploymentHistory.admissible_of_after ?_ fun e he ↦ ?_
  · intro workerId duration token locked h
    cases h
  · obtain rfl := List.mem_singleton.mp he
    exact List.mem_singleton_self _

/-- The worker succeeds before the subscription reads: the event is delivered, then the end. -/
def sampleRead : EventStream :=
  sampleOpened.draws.succeeds.advance.advance.advance.advance.advance

theorem run_delivers_sample : sampleRead.Ended ∧ ∀ e ∈ sampleRead.history.db.events,
    e.deploymentId = sampleRead.sub.deploymentId → 1 < e.id → e ∈ sampleRead.delivered := by
  have hend : .streamEnd "DEPLOYMENT_TERMINAL" ∈ sampleRead.outputs := by
    rw [show sampleRead.outputs = [.event sampleEvent, .streamEnd "DEPLOYMENT_TERMINAL"] by rfl]
    exact .tail _ (.head _)
  have hread : ∀ s : EventStream, Step s s.advance ∧ ¬EndsUnseen s s.advance :=
    fun s ↦ ⟨.receive s, not_endsUnseen_advance⟩
  have hidle : ∀ s s' : EventStream, s.phase = .idle → ¬EndsUnseen s s' := by
    rintro s s' hphase ⟨⟨again, h⟩, -⟩
    rw [hphase] at h
    cases h
  have hrun : Relation.ReflTransGen (fun s s' ↦ Step s s' ∧ ¬EndsUnseen s s') sampleOpened
      sampleRead := by
    have hdraws : Step sampleOpened sampleOpened.draws ∧ ¬EndsUnseen sampleOpened sampleOpened.draws :=
      ⟨draws_step rfl, hidle _ _ rfl⟩
    have hsucceeds : Step sampleOpened.draws sampleOpened.draws.succeeds
        ∧ ¬EndsUnseen sampleOpened.draws sampleOpened.draws.succeeds :=
      ⟨succeeds_step rfl, hidle _ _ rfl⟩
    exact .tail (.tail (.tail (.tail (.tail (.tail (.tail .refl hdraws) hsucceeds) (hread _))
      (hread _)) (hread _)) (hread _)) (hread _)
  exact (run_delivers opened_sample hrun).2.2.2.2 hend

/-- The subscription reads first and finds nothing, then the worker succeeds, and then the
subscription finds that the deployment has ended: it ends the stream without the last event. -/
def sampleMissed : EventStream := sampleOpened.advance.advance.draws.succeeds.advance

theorem run_misses_event : sampleOpened.Opened 1 ∧ Relation.ReflTransGen Step sampleOpened sampleMissed
    ∧ .streamEnd "DEPLOYMENT_TERMINAL" ∈ sampleMissed.outputs
    ∧ ∃ e ∈ sampleMissed.history.db.events, e.deploymentId = sampleMissed.sub.deploymentId ∧ 1 < e.id
      ∧ e ∉ sampleMissed.delivered := by
  refine ⟨opened_sample, ?_, ?_, sampleEvent, .tail _ (.head _), rfl, by decide, ?_⟩
  · exact .tail (.tail (.tail (.tail (.tail .refl (.receive _)) (.receive _)) (draws_step rfl))
      (succeeds_step rfl)) (.receive _)
  · rw [show sampleMissed.outputs = [.streamEnd "DEPLOYMENT_TERMINAL"] by rfl]
    exact List.mem_singleton_self _
  · rw [show sampleMissed.delivered = [] by rfl]
    exact List.not_mem_nil

end EventStream

end Heimdall
