import Steward.Delivery.Lane

/-!
# Sets of lanes

An event is offered to all lanes of a set at once. Flushing puts a marker into each lane, one lane
after the other: where a queue is full it waits until there is room. It is complete when all markers
were taken, so when every lane has handled what it held before.

The clock of the set moves on while somebody waits or flushes, and only then do the lanes do their
work.

This is the `SubscriberSet`, with `new` (`ofSubscribers`), `emit` and `flush`.
-/

namespace Steward.Delivery

/-- What befell an event in a lane. -/
inductive Mishap where
  /-- It was dropped. -/
  | dropped
  /-- The subscriber broke down on it. -/
  | broken
  deriving DecidableEq, Repr

/-- A report about a lane. -/
structure Notice where
  /-- The name of the subscriber. -/
  subscriber : String
  /-- The kind of the event. -/
  kind : EventKind
  /-- What befell it. -/
  mishap : Mishap
  /-- When it did. -/
  time : Nat
  deriving DecidableEq, Repr

/-- A set of lanes. -/
structure Lanes where
  /-- The time. -/
  now : Nat := 0
  /-- The lanes. -/
  lanes : List Lane
  /-- The reports, in order. -/
  notices : List Notice := []
  deriving Repr

/-- Puts a marker into a lane from the moment `now` on, up to which the lane was run: when it is in,
    and the lane at that moment. -/
def Lane.mark (l : Lane) (now : Nat) : Nat × Lane :=
  if l.isFull then
    let next := l.nextTake now
    (next, (l.run now (next + 1)).enqueue .marker)
  else (now, l.enqueue .marker)

namespace Lanes

/-- The set of lanes of some subscribers. -/
def ofSubscribers (subscribers : List Subscriber) : Lanes :=
  { lanes := subscribers.map fun s => { subscriber := s } }

/-- The reports about events that are offered to lanes and do not fit. -/
def dropNotices (time : Nat) (lanes : List Lane) (e : Event) : List Notice :=
  (lanes.filter Lane.isFull).map fun l => ⟨l.subscriber.name, e.kind, .dropped, time⟩

/-- Offers an event to all lanes. -/
def emit (s : Lanes) (e : Event) : Lanes :=
  { s with
    lanes := s.lanes.map fun l => l.offer e
    notices := s.notices ++ dropNotices s.now s.lanes e }

/-- The reports about events that a lane handled in addition to `before`. -/
def breakNotices (before after : Lane) : List Notice :=
  ((after.handled.drop before.handled.length).filter Handling.broken).map fun h =>
    ⟨after.subscriber.name, h.event.kind, .broken, h.time⟩

/-- The set with other lanes, which have gone on from its own, and at a later time. -/
def goOn (s : Lanes) (now : Nat) (lanes : List Lane) : Lanes :=
  let news := (s.lanes.zipWith breakNotices lanes).flatten
  { now, lanes, notices := s.notices ++ news.mergeSort fun a b => a.time ≤ b.time }

/-- Lets the lanes work up to a moment, what happens at that moment excluded. -/
def advance (s : Lanes) (stop : Nat) : Lanes :=
  s.goOn (max s.now stop) (s.lanes.map fun l => l.run s.now stop)

/-- Lets the lanes do what they do at the present moment. -/
def settle (s : Lanes) : Lanes :=
  s.goOn s.now (s.lanes.map fun l => l.run s.now (s.now + 1))

/-- Puts a marker into each lane, from the moment `now` on, if the lanes were run up to `start`: when
    the last one is in, and the lanes, each with the moment at which it got its marker. -/
def markAll (start now : Nat) : List Lane → Nat × List (Nat × Lane)
  | [] => (now, [])
  | l :: rest =>
    let marked := (l.run start now).mark now
    let others := markAll start marked.1 rest
    (others.1, marked :: others.2)

/-- When a flush that begins now is complete, and the lanes at that moment. -/
def flushed (s : Lanes) : Nat × List Lane :=
  let marked := markAll s.now s.now s.lanes
  let done := marked.2.foldl (fun t l => max t (l.2.idleAt l.1)) marked.1
  (done, marked.2.map fun l => l.2.run l.1 (done + 1))

/-- Flushes the set. -/
def flush (s : Lanes) : Lanes :=
  let done := s.flushed
  s.goOn done.1 done.2

end Lanes

end Steward.Delivery
