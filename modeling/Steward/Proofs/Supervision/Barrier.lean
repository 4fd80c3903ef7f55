import Steward.Proofs.Delivery.Arrival
import Steward.Proofs.Supervision.Accounts

/-!
# A run that returns has delivered its events

A run that does not report that subscribers are still busy returns when a flush is complete that was
requested after all events of the run were published. So the bus is empty then, and the subscribers
have processed all that they were handed, whatever the runs before have left.

Results:
* `Supervisor.serve_of_returned`: the flush at the end of a run.
* `Supervisor.run_delivers`: what the return of a run means for the subscribers.
-/

namespace Steward.Delivery.Dispatcher

variable {d d' : Dispatcher} {subscribers : List Subscriber} {time : Nat}

theorem held_serve (d : Dispatcher) : d.serve.bus.held = [] := by
  unfold serve collect
  split <;> rfl

theorem isIdle_serve (d : Dispatcher) : ∀ l ∈ d.serve.lanes.lanes, l.IsIdle :=
  d.collect.lanes.isIdle_flush

theorem capacity_steps (h : Steps d d') : d'.bus.capacity = d.bus.capacity := by
  induction h with
  | refl => rfl
  | tail _ hstep ih =>
    rw [← ih]
    obtain ⟨hbus, -⟩ | ⟨e, hbus, -⟩ | ⟨e, rest, -, -, hbus, -⟩ | ⟨-, hbus, -⟩ := hstep.cases_bus
    · rw [hbus]
    · rw [hbus, Bus.capacity_publish]
    · rw [hbus]
    · rw [hbus]

/-- By a time, all events were processed by each of some subscribers, but for those that were lost:
    the reports count the ones, and the others were dropped by its lane. -/
structure HasDelivered (subscribers : List Subscriber) (time : Nat) (d : Dispatcher) : Prop where
  collected : d.bus.held = []
  counted : d.published.length = d.forwarded.length + skipped d.reports
  forwarded : d.forwarded.Sublist d.published
  subscribers : d.lanes.lanes.map Lane.subscriber = subscribers
  processed : ∀ l ∈ d.lanes.lanes, (l.handled.map Handling.event ++ l.dropped).Perm d.forwarded
  onTime : ∀ l ∈ d.lanes.lanes, ∀ h ∈ l.handled, h.time ≤ time

/-- A flush delivers all that was published before. -/
theorem KeepsBooks.hasDelivered_serve (h : d.KeepsBooks subscribers)
    (htime : d.serve.freeAt ≤ time) :
    d.serve.HasDelivered subscribers time := by
  have hserve : d.serve.KeepsBooks subscribers := h.steps d.steps_serve
  have haccounts := hserve.accounts
  exact {
    collected := d.held_serve
    counted := haccounts.drained d.held_serve
    forwarded := haccounts.forwarded
    subscribers := haccounts.subscribers
    processed := by
      intro l hl
      have hplaced := (hserve.lanes.balances l hl).perm
      rwa [(d.isIdle_serve l hl).accepted_eq] at hplaced
    onTime := fun l hl x hx => Nat.le_trans (hserve.lanes.onTime l hl x hx) htime }

end Steward.Delivery.Dispatcher

namespace Steward.Supervision

open Delivery Delivery.Dispatcher

variable {settings : Settings} {factory : Template.Factory} {observers : List Subscriber}
  {history : List Commission} {ms returned : Nat} {s : Supervisor} {jobs : List Job} {world : World}
  {script : Script} {horizon : Nat}

/-- The reports of a run are those that were made since the last run. -/
theorem Supervisor.reports_run (s : Supervisor) (jobs : List Job) (world : World) (script : Script)
    (horizon : Nat) :
    (s.run jobs world script horizon).1.reports =
      (s.run jobs world script horizon).2.dispatcher.reports.drop s.told.reports := by
  simp [run, newsOf, tell]

/-- A run that returns without a report about busy subscribers ends with a flush. -/
theorem Supervisor.serve_of_returned (htold : s.told.reports ≤ s.dispatcher.reports.length)
    (hreturned : (s.run jobs world script horizon).1.returned = some returned)
    (hbusy : ∀ patience, Report.busy patience ∉ (s.run jobs world script horizon).1.reports) :
    ∃ d, Steps s.dispatcher d ∧ (s.run jobs world script horizon).2.dispatcher = d.serve ∧
      d.serve.freeAt = s.now + returned := by
  obtain ⟨finish, -, -, hnow, hawait⟩ := of_returned hreturned
  have hdispatcher : (s.run jobs world script horizon).2.dispatcher =
      (s.await (s.run jobs world script horizon).1.course horizon).2 := rfl
  have htime : (s.run jobs world script horizon).2.now =
      (s.await (s.run jobs world script horizon).1.course horizon).1.time := rfl
  rw [hawait] at hdispatcher htime
  have hdeliver := (s.announces_deliver (s.run jobs world script horizon).1.course).publishes.steps
  obtain ⟨d, hd, hdone, hserve⟩ | ⟨d, hd, hreport⟩ := awaitFlush_cases
    (s.deliver (s.run jobs world script horizon).1.course) (s.now + finish) s.settings.flushTimeout
  · exact ⟨d, hdeliver.trans hd, hdispatcher.trans hserve, by rw [← hdone, ← htime, hnow]⟩
  · -- the report that subscribers are busy belongs to this run
    have hlength : s.told.reports ≤ d.reports.length :=
      Nat.le_trans htold (reports_grow (hdeliver.trans hd)).length_le
    refine absurd ?_ (hbusy s.settings.flushTimeout)
    rw [reports_run, hdispatcher, hreport]
    show _ ∈ (d.reports ++ [_]).drop s.told.reports
    rw [List.drop_append_of_le_length hlength]
    exact List.mem_append_right _ List.mem_cons_self

/-- When a run returns without a report about busy subscribers, all events of this run and of all
    runs before are delivered. A subscriber whose queue was empty in the beginning was handed
    exactly the events of the run in addition, if the bus was empty as well and these events fit on
    the bus and into its queue. -/
theorem Supervisor.run_delivers (hs : s = seasoned settings factory observers history ms)
    (hreturned : (s.run jobs world script horizon).1.returned = some returned)
    (hbusy : ∀ patience, Report.busy patience ∉ (s.run jobs world script horizon).1.reports) :
    (s.run jobs world script horizon).2.dispatcher.HasDelivered (logWriter :: observers)
      (s.now + returned) ∧
    (s.run jobs world script horizon).2.dispatcher.published = s.dispatcher.published ++
      Event.numberFrom (.ofNat s.dispatcher.published.length)
        (s.run jobs world script horizon).1.course.allEvents ∧
    max settings.busCapacity 1 ≤ s.dispatcher.bus.capacity ∧
    ∀ (i : Nat) (lane : Lane), s.dispatcher.lanes.lanes[i]? = some lane →
      s.dispatcher.bus.held = [] → lane.queue = [] →
      (s.run jobs world script horizon).1.course.allEvents.length ≤ s.dispatcher.bus.capacity →
      (s.run jobs world script horizon).1.course.allEvents.length ≤ lane.limit →
      ∃ l, (s.run jobs world script horizon).2.dispatcher.lanes.lanes[i]? = some l ∧
        l.handled.map Handling.event = lane.handed ++
          Event.numberFrom (.ofNat s.dispatcher.published.length)
            (s.run jobs world script horizon).1.course.allEvents ∧
        l.dropped = lane.dropped := by
  have hsteps : Steps (start settings factory observers).dispatcher s.dispatcher := by
    rw [hs]
    exact steps_seasoned settings factory observers history ms
  have hbooks := keepsBooks_of_steps hsteps
  have htold : s.told.reports ≤ s.dispatcher.reports.length := by
    rw [hs]
    exact told_reports_seasoned_le settings factory observers history ms
  obtain ⟨d, hd, hserve, hfreeAt⟩ := serve_of_returned htold hreturned hbusy
  have hcounter : s.dispatcher.counter = .ofNat s.dispatcher.published.length := by
    rw [hs]
    exact counter_seasoned settings factory observers history ms
  have hpublishes := s.publishes_run jobs world script horizon
  have hpublished := hpublishes.published
  rw [hcounter] at hpublished
  refine ⟨?_, hpublished, ?_, ?_⟩
  · rw [hserve]
    exact (hbooks.steps hd).hasDelivered_serve (Nat.le_of_eq hfreeAt)
  · rw [capacity_steps hsteps]
    exact Bus.le_capacity_ofCapacity settings.busCapacity
  · intro i lane hlane hheld hqueue hbus hlimit
    generalize (s.run jobs world script horizon).1.course.allEvents = es
      at hpublishes hpublished hbus hlimit ⊢
    have hlength : (Event.numberFrom (.ofNat s.dispatcher.published.length) es).length = es.length :=
      Event.length_numberFrom ..
    rw [← hlength] at hbus hlimit
    refine handled_eq hheld (hbooks.missed hheld) hlane hqueue hpublishes.steps hpublished ?_ ?_
      hbus hlimit
    · rw [hserve]
      exact d.held_serve
    · rw [hserve]
      exact d.isIdle_serve

/-- A supervisor that has carried out a run with nothing to do, for an observer to whom each event
    takes a while. -/
def Supervisor.afterOne : Supervisor :=
  seasoned { flushTimeout := 100 } (fun _ _ _ => .built {}) [{ name := "observer", pause := 30 }]
    [{ jobs := [], script := { ends := some 0 }, horizon := 1000 }] 10

theorem Supervisor.run_delivers_afterOne :
    (afterOne.run [] {} { ends := some 0 } 1000).1.returned = some 60 ∧
    (afterOne.run [] {} { ends := some 0 } 1000).2.dispatcher.HasDelivered
      [logWriter, { name := "observer", pause := 30 }] (afterOne.now + 60) ∧
    ∃ l, (afterOne.run [] {} { ends := some 0 } 1000).2.dispatcher.lanes.lanes[1]? = some l ∧
      l.handled.map (fun h => (h.event.seq, h.event.kind)) =
        [(0, .shutdownRequested), (1, .allStopped), (2, .shutdownRequested), (3, .allStopped)] := by
  have hreturned : (afterOne.run [] {} { ends := some 0 } 1000).1.returned = some 60 := by
    decide +kernel
  have hbusy : ∀ patience,
      Report.busy patience ∉ (afterOne.run [] {} { ends := some 0 } 1000).1.reports := by
    have hreports : (afterOne.run [] {} { ends := some 0 } 1000).1.reports = [] := by
      decide +kernel
    simp [hreports]
  obtain ⟨hdelivered, -, -, hhands⟩ := run_delivers (s := afterOne) rfl hreturned hbusy
  refine ⟨hreturned, hdelivered, ?_⟩
  obtain ⟨l, hl, hhandled, -⟩ := hhands 1 _ (List.getElem?_eq_getElem (by decide +kernel))
    (by decide +kernel) (by decide +kernel) (by decide +kernel) (by decide +kernel)
  have hpairs : l.handled.map (fun h => (h.event.seq, h.event.kind)) =
      (l.handled.map Handling.event).map fun e => (e.seq, e.kind) := by
    rw [List.map_map]
    rfl
  refine ⟨l, hl, ?_⟩
  rw [hpairs, hhandled]
  decide +kernel

end Steward.Supervision
