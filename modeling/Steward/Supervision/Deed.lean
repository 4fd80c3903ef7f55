import Steward.Backend.Client
import Steward.Config.Resource
import Steward.Event.Basic

/-!
# What a worker does

The life of a worker is told as a list of deeds. Each is done at a moment, which consists of the time
and of a turn: a worker goes on within one turn until it has to wait for something, be it only for
the contents of a file, and begins another turn when the wait is over. Time is counted in
milliseconds from the beginning of the run.

The deeds are the calls that `run` of a `ResourceWorker` makes.
-/

namespace Steward.Supervision

/-- A moment in the life of a worker. -/
structure Moment where
  /-- The time. -/
  time : Nat := 0
  /-- The number of waits before it. -/
  turn : Nat := 0
  deriving DecidableEq, Repr, Inhabited

namespace Moment

/-- The moment after a wait until a time. -/
def awaken (m : Moment) (time : Nat) : Moment := ⟨time, m.turn + 1⟩

/-- The moment some milliseconds later; for none there is no wait. -/
def later (m : Moment) (ms : Nat) : Moment := if ms = 0 then m else m.awaken (m.time + ms)

/-- The moment after the contents of a file were waited for. -/
def afterFile (m : Moment) : Moment := m.awaken m.time

end Moment

/-- Something that a worker does. -/
inductive Deed where
  /-- It publishes an event. -/
  | publish (event : Event)
  /-- It begins an attempt to connect the backend at a position. -/
  | attempt (position : Nat) (backend : String)
  /-- It obtains the session of the backend at a position. -/
  | obtain (position : Nat)
  /-- It has the resource built. -/
  | build (clients : List Backend.Client) (templates : List Config.Template)
  /-- Its monitor begins, when it was asked to stop already or not. -/
  | watch (stopped : Bool)
  /-- Its monitor has read the values of the clients. -/
  | read (answers : List (Except Backend.LookupError Backend.Pairs))
  /-- Its monitor has come to its end. -/
  | watched
  /-- It gives up its monitor. -/
  | dismiss
  /-- It closes the session of the backend at a position. -/
  | close (position : Nat) (backend : String)
  /-- It breaks down. -/
  | breakDown

/-- A deed and its moment. -/
structure Entry where
  /-- The moment. -/
  moment : Moment
  /-- The deed. -/
  deed : Deed

/-- The event that a deed publishes. -/
def Deed.event? : Deed → Option Event
  | publish e => some e
  | _ => none

end Steward.Supervision
