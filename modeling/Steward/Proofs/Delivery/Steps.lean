import Mathlib.Logic.Relation
import Steward.Proofs.Delivery.LaneBooks

/-!
# The steps of a dispatcher

Those who publish events, the dispatcher and the lanes work side by side. `Dispatcher.Step` says
what each of them does at once: an event is created, one that was created is sent, one event is taken
from the bus and offered to the lanes, the lanes work, each for a time of its own, or they are
flushed. Steps may follow one another in any order; so what holds behind all steps holds wherever
these are interrupted. Of two events that are created by different workers, either may be sent first.

Results:
* `Dispatcher.steps_publish`: an event that is published is created and sent.
* `Dispatcher.steps_collect`: collecting all events is taking them from the bus one by one.
* `Dispatcher.steps_catchUp`, `Dispatcher.steps_forwardAt`, `Dispatcher.steps_awaitFlush`: all that
  is done in a run is done in steps.
* `Dispatcher.Step.cases_lanes`: what a step does to the lanes.
-/

namespace Steward.Delivery

/-- The number of lost events that a report tells. -/
def Report.skipped : Report → Nat
  | lagged n => n
  | _ => 0

namespace Dispatcher

/-- Takes the oldest event from the bus and offers it to the lanes. If events were given up, reports
    how many instead. -/
def receive (d : Dispatcher) : Dispatcher :=
  if d.bus.missed = 0 then
    match d.bus.held with
    | [] => d
    | e :: rest =>
      { d with
        bus := { d.bus with held := rest }
        lanes := d.lanes.emit e
        forwarded := d.forwarded ++ [e] }
  else { d.report (.lagged d.bus.missed) with bus := { d.bus with missed := 0 } }

/-- What is done at once. -/
inductive Step : Dispatcher → Dispatcher → Prop
  /-- An event is created. -/
  | create (d : Dispatcher) (e : Event) : Step d (d.create e)
  /-- One of the events that were not sent yet is sent. -/
  | send (d : Dispatcher) {e : Event} {before after : List Event}
      (h : d.unsent = before ++ e :: after) : Step d (d.send e (before ++ after))
  /-- An event is taken from the bus. -/
  | receive (d : Dispatcher) : Step d d.receive
  /-- Each lane works for some time. -/
  | work {d : Dispatcher} {now : Nat} {lanes : List Lane} (hnow : d.lanes.now ≤ now)
      (hlanes : List.Forall₂ (fun l l' => ∃ start stop, stop ≤ now + 1 ∧ l.run start stop = l')
        d.lanes.lanes lanes) : Step d { d with lanes := d.lanes.goOn now lanes }
  /-- The lanes are flushed. -/
  | flush (d : Dispatcher) : Step d { d with lanes := d.lanes.flush }
  /-- A flush is requested, or a request is taken up. -/
  | request (d : Dispatcher) (requested : Bool) : Step d { d with requested := requested }
  /-- Something is reported, but no loss of events. -/
  | report (d : Dispatcher) {r : Report} (hr : r.skipped = 0) : Step d (d.report r)

/-- Steps one after the other. -/
abbrev Steps : Dispatcher → Dispatcher → Prop := Relation.ReflTransGen Step

variable {d d' : Dispatcher} {time patience : Nat}

/-! ## All is done in steps -/

theorem Step.steps (h : Step d d') : Steps d d' := .single h

/-- The event that was created last may be sent first. -/
theorem Step.send_last {e : Event} {unsent : List Event} (h : d.unsent = unsent ++ [e]) :
    Step d (d.send e unsent) := by
  have hsend := Step.send d h
  rwa [List.append_nil] at hsend

theorem steps_publish (d : Dispatcher) (e : Event) : Steps d (d.publish e) :=
  (Step.create d e).steps.tail (.send_last rfl)

/-- Events are taken from the bus one by one. -/
theorem steps_receive (hmissed : d.bus.missed = 0) :
    Steps d { d with
      bus := d.bus.cleared
      lanes := d.bus.held.foldl Lanes.emit d.lanes
      forwarded := d.forwarded ++ d.bus.held } := by
  obtain ⟨outbox, ⟨capacity, held, missed⟩, lanes, requested, forwarded, reports⟩ := d
  obtain rfl : missed = 0 := hmissed
  induction held generalizing lanes forwarded with
  | nil =>
    rw [List.append_nil]
    exact .refl
  | cons e rest ih =>
    refine .head (.receive _) ?_
    simpa [Dispatcher.receive, Bus.cleared] using ih (lanes.emit e) (forwarded ++ [e])

theorem steps_collect (d : Dispatcher) : Steps d d.collect := by
  unfold collect
  dsimp only
  split
  · next hmissed => exact steps_receive hmissed
  · next hmissed =>
    -- first the loss is reported
    have hreceive : d.receive =
        { d.report (.lagged d.bus.missed) with bus := { d.bus with missed := 0 } } := by
      rw [receive, if_neg hmissed]
    refine .head (.receive d) ?_
    rw [hreceive]
    exact steps_receive rfl

theorem steps_settle (d : Dispatcher) : Steps d { d with lanes := d.lanes.settle } := by
  refine (Step.work (Nat.le_refl _) ?_).steps
  rw [List.forall₂_map_right_iff]
  exact List.forall₂_same.mpr fun l _ => ⟨_, _, Nat.le_refl _, rfl⟩

theorem steps_advance (d : Dispatcher) (time : Nat) :
    Steps d { d with lanes := d.lanes.advance time } := by
  refine (Step.work (Nat.le_max_left ..) ?_).steps
  rw [List.forall₂_map_right_iff]
  refine List.forall₂_same.mpr fun l _ => ⟨d.lanes.now, time, ?_, rfl⟩
  omega

theorem steps_forward (d : Dispatcher) : Steps d d.forward :=
  (steps_collect d).trans (steps_settle d.collect)

theorem steps_serve (d : Dispatcher) : Steps d d.serve :=
  (steps_collect d).tail (.flush _) |>.tail (.request _ false)

theorem steps_catchUp (d : Dispatcher) (time : Nat) : Steps d (d.catchUp time) := by
  have hforward : ∀ e : Dispatcher, Steps e (if e.freeAt < time then
      { e.forward with lanes := e.forward.lanes.advance time } else e) := by
    intro e
    split
    · exact (steps_forward e).trans (steps_advance e.forward time)
    · exact .refl
  unfold catchUp
  dsimp only
  split
  · exact (steps_serve d).trans (hforward d.serve)
  · exact hforward d

theorem steps_forwardAt (d : Dispatcher) (time : Nat) : Steps d (d.forwardAt time) := by
  unfold forwardAt
  split
  · exact steps_forward d
  · exact .refl

theorem steps_ask (d : Dispatcher) (time patience : Nat) : Steps d (d.ask time patience).2 := by
  unfold ask
  dsimp only
  split
  · split
    · exact steps_serve d
    · exact (steps_serve d).tail (.report _ rfl)
  · exact (Step.request d true).steps.tail (.report _ rfl)

theorem steps_awaitFlush (d : Dispatcher) (time patience : Nat) :
    Steps d (d.awaitFlush time patience).2 := by
  have hcatchUp := steps_catchUp d time
  unfold awaitFlush
  dsimp only
  split
  · exact hcatchUp.trans ((steps_serve _).trans (steps_ask _ _ _))
  · exact hcatchUp.trans (steps_ask _ _ _)

/-! ## What a step does -/

/-- What a step does to the lanes: nothing, or an event is offered to them, or they work. -/
theorem Step.cases_lanes (h : Step d d') :
    (d'.lanes = d.lanes ∧ d'.forwarded = d.forwarded) ∨
      (∃ e, d'.lanes = d.lanes.emit e ∧ d'.forwarded = d.forwarded ++ [e]) ∨
      ∃ now lanes, d'.lanes = d.lanes.goOn now lanes ∧ d'.forwarded = d.forwarded ∧
        d.lanes.now ≤ now ∧ List.Forall₂ (Lane.Works now) d.lanes.lanes lanes := by
  cases h with
  | create | send | request | report => exact .inl ⟨rfl, rfl⟩
  | receive =>
    unfold Dispatcher.receive
    split
    · split
      · exact .inl ⟨rfl, rfl⟩
      · next e rest _ => exact .inr (.inl ⟨e, rfl, rfl⟩)
    · exact .inl ⟨rfl, rfl⟩
  | @work now lanes hnow hlanes =>
    refine .inr (.inr ⟨now, lanes, rfl, rfl, hnow, hlanes.imp ?_⟩)
    rintro l _ ⟨start, stop, hstop, rfl⟩
    exact l.works_run start hstop
  | flush =>
    exact .inr (.inr ⟨_, _, rfl, rfl, d.lanes.now_le_now_flush, d.lanes.works_flush⟩)

/-- What a step does to the bus and the books on it: nothing, or an event is put on it, or one is
    taken, or a loss is reported. -/
theorem Step.cases_bus (h : Step d d') :
    (d'.bus = d.bus ∧ d'.published = d.published ∧ d'.forwarded = d.forwarded ∧
        (d'.reports = d.reports ∨ ∃ r, r.skipped = 0 ∧ d'.reports = d.reports ++ [r])) ∨
      (∃ e, d'.bus = d.bus.publish e ∧ d'.published = d.published ++ [e] ∧
        d'.forwarded = d.forwarded ∧ d'.reports = d.reports) ∨
      (∃ e rest, d.bus.missed = 0 ∧ d.bus.held = e :: rest ∧
        d'.bus = { d.bus with held := rest } ∧ d'.published = d.published ∧
        d'.forwarded = d.forwarded ++ [e] ∧ d'.reports = d.reports) ∨
      (d.bus.missed ≠ 0 ∧ d'.bus = { d.bus with missed := 0 } ∧ d'.published = d.published ∧
        d'.forwarded = d.forwarded ∧ d'.reports = d.reports ++ [.lagged d.bus.missed]) := by
  cases h with
  | @send e => exact .inr (.inl ⟨e, rfl, rfl, rfl, rfl⟩)
  | create | work | flush | request => exact .inl ⟨rfl, rfl, rfl, .inl rfl⟩
  | @report r hr => exact .inl ⟨rfl, rfl, rfl, .inr ⟨r, hr, rfl⟩⟩
  | receive =>
    unfold Dispatcher.receive
    split
    · next hmissed =>
      split
      · exact .inl ⟨rfl, rfl, rfl, .inl rfl⟩
      · next e rest hheld => exact .inr (.inr (.inl ⟨e, rest, hmissed, hheld, rfl, rfl, rfl, rfl⟩))
    · next hmissed => exact .inr (.inr (.inr ⟨hmissed, rfl, rfl, rfl, rfl⟩))

/-- What a step does to the events that are on their way to the bus: nothing, or one is created, or
    one is sent. -/
theorem Step.cases_outbox (h : Step d d') :
    d'.toOutbox = d.toOutbox ∨ (∃ e, d' = d.create e) ∨
      ∃ e before after, d.unsent = before ++ e :: after ∧ d' = d.send e (before ++ after) := by
  cases h with
  | create e => exact .inr (.inl ⟨e, rfl⟩)
  | @send e before after h => exact .inr (.inr ⟨e, before, after, h, rfl⟩)
  | work | flush | request | report => exact .inl rfl
  | receive =>
    refine .inl ?_
    unfold Dispatcher.receive
    split
    · split <;> rfl
    · rfl

end Dispatcher

end Steward.Delivery
