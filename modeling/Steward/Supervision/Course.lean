import Steward.Supervision.Round

/-!
# The course of a run

In a run, workers begin at the same time. If all have ended before they are asked to stop, the run is
over. Otherwise the supervisor announces at that time that it was asked to stop, the workers hear of
it, and when the last of them has ended the supervisor announces that as well. Who is asked to stop
in the very beginning announces it even if there is no worker.

The course of a run depends on nothing but its workers and their surroundings. It is told up to a
time, its horizon, or for as long as each worker is told: time does not pass while one of them repeats
attempts without any pause.

This is `drive_shutdown`, with `spawn_workers` and `join_all`.
-/

namespace Steward.Supervision

/-- What happens in a run. -/
structure Course where
  /-- What the workers do before they are asked to stop. -/
  before : List Round
  /-- When they are asked to stop. -/
  stop : Option Nat := none
  /-- What they do from then on. -/
  after : List Round := []
  /-- When the last of them has ended. -/
  finish : Option Nat := none

namespace Course

/-- The event that the run is asked to stop. -/
def shutdownRequested : Event := { kind := .shutdownRequested }

/-- The event that all workers of a run that was asked to stop have ended. -/
def allStopped : Event := { kind := .allStopped }

/-- The announcement of an event by the supervisor. -/
def announcement (time : Nat) (e : Event) : Round := ⟨time, [{ deed := .publish e }]⟩

/-- The announcement that the run is asked to stop. -/
def opening (c : Course) : List Round :=
  (c.stop.map fun time => announcement time shutdownRequested).toList

/-- The announcement that all workers of a run that was asked to stop have ended. -/
def closing (c : Course) : List Round :=
  match c.stop, c.finish with
  | some _, some time => [announcement time allStopped]
  | _, _ => []

/-- All that happens, in order. -/
def rounds (c : Course) : List Round := c.before ++ c.opening ++ c.after ++ c.closing

/-- The time of the last of some rounds, or `start` if there is none. -/
def lastTime (start : Nat) (rounds : List Round) : Nat := (rounds.getLast?.map Round.time).getD start

/-- The workers when they hear that they are asked to stop. -/
def summoned (t : Troupe) (stop : Nat) : Troupe := if stop = 0 then t else t.reversed

/-- The time up to which all of some lives are told, `horizon` at most. -/
def toldUntil (horizon : Nat) (lives : List Passage) : Nat :=
  (lives.filterMap fun life => life.ending.told?).foldl min horizon

/-- The course of a run. -/
def ofWorkers (workers : List Worker) (s : Surroundings) (horizon : Nat) : Course :=
  let lives := workers.map fun w => w.life s horizon
  let told := toldUntil horizon lives
  let troupe := Troupe.ofLives lives
  let (before, left) := troupe.rounds (fun time => time ≤ told && !s.stopped time) troupe.size
  if left.isOver && !s.stopped 0 then { before, finish := some (lastTime 0 before) }
  else
    match s.stop.filter fun time => time ≤ told with
    | none => { before }
    | some stop =>
      let (after, left) := (summoned left stop).rounds (fun time => time ≤ told) left.size
      let finish := if left.isOver then some (lastTime stop after) else none
      { before, stop := some stop, after, finish }

end Course

end Steward.Supervision
