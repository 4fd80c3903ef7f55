import Steward.Template.Basic

/-!
# Monitors

A monitor keeps the outputs of a resource up to date. It works for a given time, or until it is asked
to stop; then it may need some more time to end. While it works it can read the values of its
clients.

A factory is a `ResourceFactory` with its `new_resource`, and a monitor is a `Monitor`; what both do
is up to their users.
-/

namespace Steward.Template

/-- When a monitor reads its clients. -/
inductive Reading where
  /-- It does not. -/
  | never
  /-- As soon as it begins. -/
  | once
  /-- As soon as it begins, and again after each so many milliseconds. -/
  | every (ms : Nat)
  deriving DecidableEq, Repr

/-- The work of a monitor. -/
structure Monitor where
  /-- The time, in milliseconds, after which it ends on its own. -/
  lifetime : Option Nat := none
  /-- The time that it takes to end when it is asked to stop. -/
  grace : Nat := 0
  /-- When it reads its clients. -/
  reading : Reading := .never
  /-- True if it ends by breaking down. -/
  breaks : Bool := false
  deriving DecidableEq, Repr

/-- What has become of a resource that was to be built. -/
inductive BuildOutcome where
  /-- It is built, and this monitors it. -/
  | built (monitor : Monitor)
  /-- It cannot be built. -/
  | refused (error : BuildError)
  /-- The builder broke down. -/
  | broken
  deriving DecidableEq, Repr

/-- A builder of resources, from their name, clients and templates. -/
abbrev Factory := String → List Backend.Client → List Config.Template → BuildOutcome

namespace Monitor

/-- The earlier of two moments, either of which may never come. -/
def earlier : Option Nat → Option Nat → Option Nat
  | some a, some b => some (min a b)
  | a, none => a
  | none, b => b

/-- When a monitor ends that begins at the moment `start` and is asked to stop at `stop`. -/
def endTime (m : Monitor) (start : Nat) (stop : Option Nat) : Option Nat :=
  earlier (m.lifetime.map (start + ·)) (stop.map fun t => max t start + m.grace)

/-- How often a monitor reads its clients again, if it works from `start` until `stop`. -/
def rereadings (m : Monitor) (start stop : Nat) : Nat :=
  match m.reading with
  | .every ms => (stop - start - 1) / ms
  | _ => 0

/-- The time between two readings. -/
def readingPause (m : Monitor) : Nat :=
  match m.reading with
  | .every ms => ms
  | _ => 0

end Monitor

end Steward.Template
