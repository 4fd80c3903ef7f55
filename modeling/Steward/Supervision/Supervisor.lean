import Steward.Delivery.Dispatcher
import Steward.Supervision.Course
import Steward.World.Script

/-!
# The supervisor

A supervisor carries out runs one after the other. In each it gives every resource a worker, and
publishes what the workers do. A run returns when its workers have ended and the subscribers have
handled all events, or when it has waited for that long enough. What a subscriber has not handled by
then it handles in the next run.

The writer of the log is the first of the subscribers.

`start` is `build` of the `SupervisorBuilder`, `worker` is a step of `spawn_workers`, and `run` is
`run`, with `subscriber_listener` and `flush_subscribers` in `deliver` and `await`. The settings are
a `SupervisorConfig`.
-/

namespace Steward.Supervision

open Delivery (Dispatcher Handling Notice Report Subscriber)

/-- The settings of a supervisor. -/
structure Settings where
  /-- The pause between two attempts to connect, in milliseconds. -/
  retryDelay : Nat := 2000
  /-- How long a run waits for the subscribers, in milliseconds. -/
  flushTimeout : Nat := 5000
  /-- The number of events on the bus. -/
  busCapacity : Nat := 1024
  deriving DecidableEq, Repr

/-- A resource to look after, with the connectors that were added to its own. -/
structure Job where
  /-- The resource. -/
  resource : Config.Resource
  /-- The added connectors. -/
  added : List Backend.Connector := []

/-- How much of what is on the books was told as part of a run. -/
structure Told where
  /-- The number of handled events of each lane. -/
  handled : List Nat
  /-- The number of reports about lanes. -/
  notices : Nat := 0
  /-- The number of reports about the delivery as a whole. -/
  reports : Nat := 0
  deriving DecidableEq, Repr

/-- A supervisor between two runs. -/
structure Supervisor where
  /-- The settings. -/
  settings : Settings
  /-- What builds resources. -/
  factory : Template.Factory
  /-- What passes events on. -/
  dispatcher : Dispatcher
  /-- The time. -/
  now : Nat := 0
  /-- True until the first run. -/
  isFresh : Bool := true
  /-- What was told as part of former runs. -/
  told : Told

/-- What has become of a run. Times are counted from its beginning. -/
structure Outcome where
  /-- What happened in it. -/
  course : Course
  /-- When it returned, if it did before the horizon. -/
  returned : Option Nat
  /-- For each subscriber, the events that it handled meanwhile. -/
  handled : List (List Handling)
  /-- The reports about lanes. -/
  notices : List Notice
  /-- The reports about the delivery as a whole. -/
  reports : List Report
  /-- The world that it left. -/
  world : World

namespace Supervisor

/-- The subscriber that writes the log. -/
def logWriter : Subscriber := { name := "log-writer" }

/-- A new supervisor. -/
def start (settings : Settings) (factory : Template.Factory) (observers : List Subscriber) :
    Supervisor :=
  let subscribers := logWriter :: observers
  { settings, factory
    dispatcher := .start settings.busCapacity subscribers
    told := { handled := subscribers.map fun _ => 0 } }

/-- The worker for a job at a position. -/
def worker (s : Supervisor) (job : Job) (position : Nat) : Worker :=
  let resource := job.resource.withDefaultName (Config.Resource.positionName position)
  { name := resource.name
    connectors := resource.backends.connectors job.added
    templates := resource.templates
    factory := s.factory
    retryDelay := s.settings.retryDelay }

/-- The course of a run in a world that a script changes; the script ends when it is time to stop. -/
def course (s : Supervisor) (jobs : List Job) (world : World) (script : Script) (horizon : Nat) :
    Course :=
  .ofWorkers (jobs.zipIdx.map fun j => s.worker j.1 j.2)
    ⟨script.completion, script.worldAt world⟩ horizon

/-! ## Delivery -/

/-- Publishes the events of a round. The run began at the time `start`. -/
def publish (start : Nat) (d : Dispatcher) (r : Round) : Dispatcher :=
  r.events.foldl Dispatcher.publish (d.catchUp (start + r.time))

/-- The reports about workers that break down in a round. -/
def breakdowns (r : Round) : List Report :=
  r.acts.filterMap fun a => match a.deed with
    | .breakDown => some .workerBroken
    | _ => none

/-- Publishes the events of a round and has them forwarded. -/
def relay (start : Nat) (d : Dispatcher) (r : Round) : Dispatcher :=
  (breakdowns r).foldl Dispatcher.report ((publish start d r).forwardAt (start + r.time))

/-- True if the announcement that a run is asked to stop is forwarded before the workers hear of it:
    in the very beginning of a run they are quicker, unless the dispatcher has yet to begin. -/
def forwardsOpening (s : Supervisor) (c : Course) : Bool :=
  c.stop != some 0 || s.isFresh && !c.after.isEmpty

/-- Publishes all events of a run. -/
def deliver (s : Supervisor) (c : Course) : Dispatcher :=
  let announce := if s.forwardsOpening c then relay s.now else publish s.now
  let d := c.before.foldl (relay s.now) s.dispatcher
  let d := c.opening.foldl announce d
  let d := c.after.foldl (relay s.now) d
  c.closing.foldl (publish s.now) d

/-- What is on the books, as far as it happened before a time. -/
def tell (d : Dispatcher) (time : Nat) : Told where
  handled := d.lanes.lanes.map fun l => (l.handled.takeWhile fun h => h.time < time).length
  notices := (d.lanes.notices.takeWhile fun n => n.time < time).length
  reports := d.reports.length

/-- What is on the books in addition to `before`, up to `after`. -/
def newsOf (d : Dispatcher) (before after : Told) (start : Nat) :
    List (List Handling) × List Notice × List Report :=
  let cut {α : Type} (a b : Nat) (xs : List α) : List α := (xs.take b).drop a
  let spans := before.handled.zip after.handled
  (d.lanes.lanes.zipWith (fun l span =>
      (cut span.1 span.2 l.handled).map fun h => { h with time := h.time - start }) spans,
    (cut before.notices after.notices d.lanes.notices).map fun n =>
      { n with time := n.time - start },
    cut before.reports after.reports d.reports)

/-- Waits for the subscribers at the end of a run; a run that goes on beyond the horizon is left
    there. -/
def await (s : Supervisor) (c : Course) (horizon : Nat) : Delivery.Dispatcher.Wait × Dispatcher :=
  let d := s.deliver c
  let limit := s.now + horizon
  match c.finish with
  | some time => d.awaitFlush (s.now + time) s.settings.flushTimeout
  | none => (⟨limit + 1, false, limit + 1⟩, d.catchUp limit)

/-- Carries out a run, which is followed up to a horizon. -/
def run (s : Supervisor) (jobs : List Job) (world : World) (script : Script) (horizon : Nat) :
    Outcome × Supervisor :=
  let course := s.course jobs world script horizon
  let (wait, dispatcher) := s.await course horizon
  let isLate := s.now + horizon < wait.time
  let told := tell dispatcher (min wait.horizon (s.now + horizon + 1))
  let (handled, notices, reports) := newsOf dispatcher s.told told s.now
  let returned := if isLate then none else some (wait.time - s.now)
  let world := script.worldAt world (course.finish.getD horizon)
  ({ course, returned, handled, notices, reports, world },
    { s with dispatcher, now := wait.time, isFresh := false, told })

end Supervisor

end Steward.Supervision
