import Steward.Delivery.Bus
import Steward.Delivery.Lanes

/-!
# The dispatcher

The dispatcher collects the events from the bus and offers them to all lanes. It does so after each
round of work in which events were published, unless it is flushing the lanes at that moment: then it
goes on when the flush is complete.

Somebody who waits for a flush does so for a limited time. A flush that nobody waits for any more is
carried out nevertheless. There can be one request for a flush beside the one that is carried out;
who makes another one first waits, however long it takes, until the dispatcher has taken up the
former.

A flush is followed to its end as soon as it begins. While it lasts, the clock of the lanes is ahead
of the time at which the dispatcher is used.

Events are created and sent in two steps (`new` of an event, `publish` of the bus). Who publishes one
does both, but others may do theirs in between.

`collect` is `forward_buffered`, `forward` and `serve` are the two branches of `subscriber_listener`,
and `awaitFlush` is `flush_subscribers`.
-/

namespace Steward.Delivery

/-- A report about the delivery as a whole. -/
inductive Report where
  /-- Events were given up by the bus. -/
  | lagged (skipped : Nat)
  /-- A flush was not complete after the time for which it was waited. -/
  | busy (patience : Nat)
  /-- A worker broke down. -/
  | workerBroken
  deriving DecidableEq, Repr

/-- The events on their way to the bus, with the books on them. -/
structure Outbox where
  /-- The number of the next event. -/
  counter : UInt64 := 0
  /-- The events that were created, in order. -/
  created : List Event := []
  /-- Those of them that were not sent yet. -/
  unsent : List Event := []
  /-- The events that were published, in order. -/
  published : List Event := []
  deriving Repr

/-- The bus and the lanes, with the books on what passed through them. -/
structure Dispatcher extends Outbox where
  /-- The bus. -/
  bus : Bus
  /-- The lanes. -/
  lanes : Lanes
  /-- True if there is a request for a flush that nobody waits for any more. -/
  requested : Bool := false
  /-- The events that were offered to the lanes, in order. -/
  forwarded : List Event := []
  /-- The reports, in order. -/
  reports : List Report := []
  deriving Repr

namespace Dispatcher

/-- A dispatcher for some subscribers. -/
def start (capacity : Nat) (subscribers : List Subscriber) : Dispatcher :=
  { bus := .ofCapacity capacity, lanes := .ofSubscribers subscribers }

/-- When the dispatcher is free again. -/
def freeAt (d : Dispatcher) : Nat := d.lanes.now

/-- Adds a report. -/
def report (d : Dispatcher) (r : Report) : Dispatcher := { d with reports := d.reports ++ [r] }

/-- Creates an event, which gets its number. -/
def create (d : Dispatcher) (e : Event) : Dispatcher :=
  let e := e.withNumber d.counter
  { d with counter := d.counter + 1, created := d.created ++ [e], unsent := d.unsent ++ [e] }

/-- Puts an event that was created on the bus; `unsent` are the others that were not sent yet. -/
def send (d : Dispatcher) (e : Event) (unsent : List Event) : Dispatcher :=
  { d with bus := d.bus.publish e, unsent := unsent, published := d.published ++ [e] }

/-- Creates an event and sends it at once. -/
def publish (d : Dispatcher) (e : Event) : Dispatcher :=
  (d.create e).send (e.withNumber d.counter) d.unsent

/-- Collects the events from the bus and offers them to the lanes. -/
def collect (d : Dispatcher) : Dispatcher :=
  let d := if d.bus.missed = 0 then d else d.report (.lagged d.bus.missed)
  { d with
    bus := d.bus.cleared
    lanes := d.bus.held.foldl Lanes.emit d.lanes
    forwarded := d.forwarded ++ d.bus.held }

/-- Collects events, and lets the lanes do what they do at that moment. -/
def forward (d : Dispatcher) : Dispatcher :=
  let d := d.collect
  { d with lanes := d.lanes.settle }

/-- Takes up a request for a flush: collects events and flushes the lanes. -/
def serve (d : Dispatcher) : Dispatcher :=
  let d := d.collect
  { d with lanes := d.lanes.flush, requested := false }

/-- Does what is to be done up to a moment. -/
def catchUp (d : Dispatcher) (time : Nat) : Dispatcher :=
  let d := if d.requested ∧ d.freeAt ≤ time then d.serve else d
  if d.freeAt < time then
    let d := d.forward
    { d with lanes := d.lanes.advance time }
  else d

/-- Forwards events at a moment, if the dispatcher is free. -/
def forwardAt (d : Dispatcher) (time : Nat) : Dispatcher :=
  if d.freeAt ≤ time then d.forward else d

/-- How waiting for a flush ended. -/
structure Wait where
  /-- When it ended. -/
  time : Nat
  /-- True if the flush was complete. -/
  complete : Bool
  /-- The moment before which events were handled that were handled by then. -/
  horizon : Nat
  deriving DecidableEq, Repr

/-- Asks at a moment for a flush and waits for it as long as `patience` says. -/
def ask (d : Dispatcher) (time patience : Nat) : Wait × Dispatcher :=
  let deadline := time + patience
  let givenUp : Wait := ⟨deadline, false, max deadline (time + 1)⟩
  if max d.freeAt time < deadline then
    let d := d.serve
    if d.freeAt < deadline then (⟨d.freeAt, true, d.freeAt + 1⟩, d)
    else (givenUp, d.report (.busy patience))
  else (givenUp, { d with requested := true }.report (.busy patience))

/-- Waits for a flush from a moment on, behind a former request if there is one. -/
def awaitFlush (d : Dispatcher) (time patience : Nat) : Wait × Dispatcher :=
  let d := d.catchUp time
  if d.requested then d.serve.ask d.freeAt patience else d.ask time patience

end Dispatcher

end Steward.Delivery
