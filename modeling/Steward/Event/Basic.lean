/-!
# Events

What happens while resources are supervised is told as events. An event has a kind, a number that
says when it was created in comparison with others, and the details that its kind calls for.
Counts in an event have 32 bits; a greater count is written as the greatest one.

The numbers come from a counter of 64 bits (`EVENT_SEQ`), which `new` of an event reads and moves on
in one step (`fetch_add`); behind its greatest value it begins again.
-/

namespace Steward

/-- What has happened. -/
inductive EventKind where
  /-- The run was asked to stop. -/
  | shutdownRequested
  /-- All workers of a run that was asked to stop have ended. -/
  | allStopped
  /-- A worker begins to connect the backends of its resource. -/
  | resourceStarting
  /-- A backend is connected. -/
  | backendConnected
  /-- A backend is not configured. -/
  | backendSkipped
  /-- An attempt to connect a backend failed. -/
  | backendConnectFailed
  /-- There will be another attempt. -/
  | retryScheduled
  /-- The resource cannot be built. -/
  | resourceBuildFailed
  /-- The resource is built and watched. -/
  | resourceWatching
  /-- A worker has ended its work. -/
  | resourceStopped
  /-- The backends of a resource are closed. -/
  | backendsReleased
  deriving DecidableEq, Repr, Inhabited

namespace EventKind

/-- The name of a kind. -/
def name : EventKind → String
  | shutdownRequested => "ShutdownRequested"
  | allStopped => "AllStopped"
  | resourceStarting => "ResourceStarting"
  | backendConnected => "BackendConnected"
  | backendSkipped => "BackendSkipped"
  | backendConnectFailed => "BackendConnectFailed"
  | retryScheduled => "RetryScheduled"
  | resourceBuildFailed => "ResourceBuildFailed"
  | resourceWatching => "ResourceWatching"
  | resourceStopped => "ResourceStopped"
  | backendsReleased => "BackendsReleased"

/-- All kinds. -/
def all : List EventKind :=
  [shutdownRequested, allStopped, resourceStarting, backendConnected, backendSkipped,
    backendConnectFailed, retryScheduled, resourceBuildFailed, resourceWatching, resourceStopped,
    backendsReleased]

/-- The kind with a name. -/
def ofName? (name : String) : Option EventKind := all.find? fun k => k.name = name

end EventKind

/-- The greatest count that an event holds. -/
def greatestCount : Nat := UInt32.size - 1

/-- A count as an event holds it. -/
def saturate (n : Nat) : Nat := min n greatestCount

/-- A length of time in whole milliseconds, as an event holds it. -/
def delayCount (nanoseconds : Nat) : Nat := saturate (nanoseconds / 1000000)

/-- Something that has happened. -/
structure Event where
  /-- What has happened. -/
  kind : EventKind
  /-- The name of the resource. -/
  resource : Option String := none
  /-- The name of the backend. -/
  backend : Option String := none
  /-- The number of the attempt. -/
  attempt : Option Nat := none
  /-- The pause before the next attempt, in milliseconds. -/
  delay : Option Nat := none
  /-- Why something failed. -/
  reason : Option String := none
  /-- The number of backends that were closed. -/
  released : Option Nat := none
  /-- What the counter showed when the event was created. -/
  number : UInt64 := 0
  deriving DecidableEq, Repr, Inhabited

namespace Event

/-- The number of an event, by which it is compared with others. -/
def seq (e : Event) : Nat := e.number.toNat

/-- The event with a pause before the next attempt. -/
def withDelay (e : Event) (nanoseconds : Nat) : Event :=
  { e with delay := some (delayCount nanoseconds) }

/-- The event with the number of an attempt. -/
def withAttempt (e : Event) (n : Nat) : Event := { e with attempt := some (saturate n) }

/-- The event with a number of closed backends. -/
def withReleased (e : Event) (n : Nat) : Event := { e with released := some (saturate n) }

/-- The event with the number that the counter shows. -/
def withNumber (e : Event) (counter : UInt64) : Event := { e with number := counter }

/-- Gives numbers to events in the order of a list, beginning with what the counter shows. -/
def numberFrom (counter : UInt64) : List Event → List Event
  | [] => []
  | e :: rest => e.withNumber counter :: numberFrom (counter + 1) rest

end Event

end Steward
