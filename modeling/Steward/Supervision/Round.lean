import Steward.Supervision.Worker

/-!
# Rounds

Several workers take turns. In a round, all workers go on whose wait is over at that time, one after
the other, in the order in which they began to wait; each carries out the deeds of one turn. Then
comes the next round, at the same time or later.

Workers that are asked to stop hear of it in an order of their own: a line-up in which each worker
that ends leaves its place to the last one.

The workers are the tasks that `join_all` waits for, and the line-up is the order in which a token
tells its children that it is cancelled.
-/

namespace Steward.Supervision

/-- A deed and the position of the worker that does it; the supervisor has none. -/
structure Act where
  /-- The position of the worker. -/
  worker : Option Nat := none
  /-- The deed. -/
  deed : Deed

/-- What is done without a wait. -/
structure Round where
  /-- The time. -/
  time : Nat
  /-- What is done, in order. -/
  acts : List Act

/-- The events that are published in a round. -/
def Round.events (r : Round) : List Event := r.acts.filterMap fun a => a.deed.event?

/-- A worker that takes its turns. -/
structure Actor where
  /-- Its position. -/
  position : Nat
  /-- The deeds of each turn that is still to come. -/
  turns : List (List Entry)
  /-- True if its life ends with the last of these turns. -/
  ends : Bool

namespace Actor

/-- A worker at the beginning of its life. -/
def ofLife (position : Nat) (life : Passage) : Actor where
  position := position
  turns := life.entries.splitBy fun a b => a.moment = b.moment
  ends := life.ending.told?.isNone

/-- The time of the next turn. -/
def nextTime (a : Actor) : Option Nat := (a.turns.head?.bind List.head?).map fun e => e.moment.time

/-- True if the next turn is at a time. -/
def isDue (a : Actor) (time : Nat) : Bool := a.nextTime == some time

/-- What the worker does in the next turn. -/
def acts (a : Actor) : List Act :=
  (a.turns.head?.getD []).map fun e => ⟨some a.position, e.deed⟩

/-- The worker behind the next turn. -/
def afterTurn (a : Actor) : Actor := { a with turns := a.turns.tail }

/-- True if the worker has ended. -/
def hasEnded (a : Actor) : Bool := a.turns.isEmpty && a.ends

end Actor

/-- Workers that take turns. -/
structure Troupe where
  /-- Those that wait, in the order in which they began to. -/
  waiting : List Actor
  /-- The positions of those that have not ended, in their line-up. -/
  lineUp : List Nat

namespace Troupe

/-- Workers at the beginning of their lives. -/
def ofLives (lives : List Passage) : Troupe where
  waiting := lives.zipIdx.map fun l => Actor.ofLife l.2 l.1
  lineUp := List.range lives.length

/-- The time of the next round. -/
def nextTime (t : Troupe) : Option Nat := (t.waiting.filterMap Actor.nextTime).min?

/-- A line-up without one that leaves its place to the last. -/
def leave (lineUp : List Nat) (position : Nat) : List Nat :=
  if lineUp.getLast? = some position then lineUp.dropLast
  else
    match lineUp.getLast? with
    | some last => lineUp.dropLast.map fun p => if p = position then last else p
    | none => []

/-- The round at a time, and the workers behind it. -/
def round (t : Troupe) (time : Nat) : Round × Troupe :=
  let due := t.waiting.filter fun a => a.isDue time
  let others := t.waiting.filter fun a => !a.isDue time
  let behind := due.map Actor.afterTurn
  (⟨time, due.flatMap Actor.acts⟩,
    { waiting := others ++ behind.filter fun a => !a.hasEnded
      lineUp := (behind.filter Actor.hasEnded).foldl (fun l a => leave l a.position) t.lineUp })

/-- The next rounds whose times fulfil a condition, at most `limit` of them, and the workers behind
    them. -/
def rounds (while? : Nat → Bool) : (limit : Nat) → Troupe → List Round × Troupe
  | 0, t => ([], t)
  | limit + 1, t =>
    match t.nextTime with
    | some time =>
      if while? time then
        let first := t.round time
        let rest := rounds while? limit first.2
        (first.1 :: rest.1, rest.2)
      else ([], t)
    | none => ([], t)

/-- The number of turns that are still to come. -/
def size (t : Troupe) : Nat := (t.waiting.flatMap Actor.turns).length

/-- The workers in the reverse order of their line-up. -/
def reversed (t : Troupe) : Troupe :=
  { t with
    waiting := t.lineUp.reverse.filterMap fun p => t.waiting.find? fun a => a.position = p }

/-- True if all workers have ended. -/
def isOver (t : Troupe) : Bool := t.waiting.isEmpty

end Troupe

end Steward.Supervision
