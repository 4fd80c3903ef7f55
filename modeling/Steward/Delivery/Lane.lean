import Steward.Event.Basic

/-!
# Lanes

Each subscriber has a lane: a queue of bounded length in front of it. An event that does not fit is
dropped. The subscriber takes what is in the queue one after the other; an event takes it a fixed
time, during which it is no longer in the queue. Beside events a queue can hold a marker, which tells
when everything in front of it has been handled.

Time is counted in whole milliseconds. `Lane.run` carries out what a lane does from one moment up to
another, the latter excluded, so what is run in two parts is run as a whole.

A subscriber is a `Subscribe`, with `queue_capacity` and `on_event`; a lane is what `open_lane` sets
up, and `take` is its loop.
-/

namespace Steward.Delivery

/-- What is known about a subscriber. -/
structure Subscriber where
  /-- Its name. -/
  name : String
  /-- The length of its queue; there is always room for one event. -/
  capacity : Nat := 1024
  /-- How long it takes to handle an event, in milliseconds. -/
  pause : Nat := 0
  /-- The kinds of events that it breaks down on. -/
  breaksOn : List EventKind := []
  deriving DecidableEq, Repr

/-- What a queue holds. -/
inductive Envelope where
  /-- An event. -/
  | event (e : Event)
  /-- A marker. -/
  | marker
  deriving DecidableEq, Repr

/-- An event that was handled. -/
structure Handling where
  /-- The event. -/
  event : Event
  /-- When the subscriber was done with it. -/
  time : Nat
  /-- Whether the subscriber broke down on it. -/
  broken : Bool
  deriving DecidableEq, Repr

/-- A subscriber with its queue and what has become of its events. -/
structure Lane where
  /-- The subscriber. -/
  subscriber : Subscriber
  /-- What waits to be taken, the first in front. -/
  queue : List Envelope := []
  /-- The event that is being handled, and until when. -/
  current : Option (Event × Nat) := none
  /-- The events that were handled, in order. -/
  handled : List Handling := []
  /-- The events that were dropped, in order. -/
  dropped : List Event := []
  /-- When markers were taken, in order. -/
  marks : List Nat := []
  deriving DecidableEq, Repr

namespace Lane

/-- The number of envelopes that the queue has room for. -/
def limit (l : Lane) : Nat := max l.subscriber.capacity 1

/-- True if the queue has no room. -/
def isFull (l : Lane) : Bool := l.limit ≤ l.queue.length

/-- Adds to the queue. -/
def enqueue (l : Lane) (x : Envelope) : Lane := { l with queue := l.queue ++ [x] }

/-- Queues an event, or drops it. -/
def offer (l : Lane) (e : Event) : Lane :=
  if l.isFull then { l with dropped := l.dropped ++ [e] } else l.enqueue (.event e)

/-- The subscriber is done with an event. -/
def finish (l : Lane) (e : Event) (time : Nat) : Lane :=
  { l with
    current := none
    handled := l.handled ++ [⟨e, time, l.subscriber.breaksOn.contains e.kind⟩] }

/-- Takes from the queue `queue` from the moment `now` on, which is before `stop`, until nothing is
    left or an event takes until `stop` at least. -/
def take (stop : Nat) : (queue : List Envelope) → (now : Nat) → Lane → Lane
  | [], _, l => { l with queue := [] }
  | .marker :: rest, now, l => take stop rest now { l with marks := l.marks ++ [now] }
  | .event e :: rest, now, l =>
    let done := now + l.subscriber.pause
    if done < stop then take stop rest done (l.finish e done)
    else { l with queue := rest, current := some (e, done) }

/-- What the lane does from the moment `now` on and before `stop`. -/
def run (l : Lane) (now stop : Nat) : Lane :=
  match l.current with
  | some (e, done) => if done < stop then take stop l.queue done (l.finish e done) else l
  | none => if now < stop then take stop l.queue now l else l

/-- When the lane next takes from its queue. -/
def nextTake (l : Lane) (now : Nat) : Nat := (l.current.map (·.2)).getD now

/-- The number of events in the queue. -/
def backlog (l : Lane) : Nat := l.queue.countP fun x => x != .marker

/-- When the lane will have handled all that it holds. -/
def idleAt (l : Lane) (now : Nat) : Nat := l.nextTake now + l.backlog * l.subscriber.pause

end Lane

end Steward.Delivery
