import Steward.World.Basic

/-!
# Scripts

A script changes a world over time. Its entries are carried out one after the other: an entry does
not come before its time, nor before the entries in front of it. Time is counted in milliseconds.

A script plays the others while `run` of a supervisor is going on; its end is when the `stop` of
this run completes.
-/

namespace Steward

/-- Changes to a world over time, and when there will be no more. -/
structure Script where
  /-- The changes, each with its time. -/
  changes : List (Nat × WorldChange) := []
  /-- When the script ends, if it does. -/
  ends : Option Nat := none
  deriving Inhabited

namespace Script

/-- Changes with the times at which they are really made, after a moment `now`. -/
def timed (now : Nat) : List (Nat × WorldChange) → List (Nat × WorldChange)
  | [] => []
  | (time, change) :: rest => (max now time, change) :: timed (max now time) rest

/-- The world at a time, if it was `world` in the beginning. -/
def worldAt (s : Script) (world : World) (time : Nat) : World :=
  ((timed 0 s.changes).takeWhile fun c => c.1 ≤ time).foldl (fun w c => w.apply c.2) world

/-- The time at which the script is complete. -/
def completion (s : Script) : Option Nat :=
  s.ends.map fun time => (s.changes.map Prod.fst).foldl max time

end Script

end Steward
