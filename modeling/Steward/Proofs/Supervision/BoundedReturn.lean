import Steward.Proofs.Delivery.Waiting
import Steward.Proofs.Supervision.Course

/-!
# When a run returns

When its workers have ended, a run waits for its subscribers for a limited time. It returns late
only when two runs before it gave up waiting: the flush of the first is still carried out, and the
request of the second has not been taken up. The wait for that comes on top.

Results:
* `passes_deliver`: what the events of a run mean for the requests.
* `Supervisor.returnsInTime_iff`: when a run returns in time.
* `Supervisor.not_returnsInTime`: the third run of a supervisor that returns late.
* `Supervisor.IsFree.returnsInTime`, `Supervisor.IsFree.returnsInTime_run`: after a complete flush
  the next two runs return in time.
-/

namespace Steward.Delivery.Dispatcher

variable {d d' : Dispatcher} {times : List Nat}

/-! ## Passing time -/

/-- One dispatcher comes from another by going on to some times in turn. In between events may be
    published and forwarded, but nobody asks for a flush. -/
inductive Passes : List Nat → Dispatcher → Dispatcher → Prop
  /-- Nothing happens. -/
  | nil (d : Dispatcher) : Passes [] d d
  /-- It goes on to a time, and from there. -/
  | cons {d e d' : Dispatcher} {time : Nat} {times : List Nat}
      (hrequested : e.requested = (d.catchUp time).requested)
      (hfreeAt : e.freeAt = (d.catchUp time).freeAt) (hrest : Passes times e d') :
      Passes (time :: times) d d'

namespace Passes

theorem append {times' : List Nat} {d'' : Dispatcher} (h : Passes times d d')
    (h' : Passes times' d' d'') : Passes (times ++ times') d d'' := by
  induction h with
  | nil => exact h'
  | cons hrequested hfreeAt _ ih => exact .cons hrequested hfreeAt (ih h')

/-- A dispatcher that is busy for all the time stays as it is. -/
theorem of_busy (h : Passes times d d') (hbusy : ∀ time ∈ times, time < d.freeAt) :
    d'.requested = d.requested ∧ d'.freeAt = d.freeAt := by
  induction h with
  | nil => exact ⟨rfl, rfl⟩
  | cons hrequested hfreeAt _ ih =>
    rw [List.forall_mem_cons] at hbusy
    rw [catchUp_eq hbusy.1] at hrequested hfreeAt
    obtain ⟨hrequested', hfreeAt'⟩ := ih (by rw [hfreeAt]; exact hbusy.2)
    exact ⟨hrequested'.trans hrequested, hfreeAt'.trans hfreeAt⟩

/-- A request that waits in the end has waited all the time, and the dispatcher was busy. -/
theorem of_requested (h : Passes times d d') (hwait : d'.requested = true) :
    d.requested = true ∧ d'.freeAt = d.freeAt := by
  induction h with
  | nil => exact ⟨hwait, rfl⟩
  | cons hrequested hfreeAt _ ih =>
    obtain ⟨hwait', hfreeAt'⟩ := ih hwait
    rw [hrequested] at hwait'
    obtain ⟨hd, ht⟩ := of_requested_catchUp hwait'
    rw [catchUp_eq ht] at hfreeAt
    exact ⟨hd, hfreeAt'.trans hfreeAt⟩

/-- Without a request the dispatcher is free again and again. -/
theorem of_not_requested {limit : Nat} (h : Passes times d d') (hd : d.requested = false)
    (hfree : d.freeAt ≤ limit) (htimes : ∀ time ∈ times, time ≤ limit) :
    d'.requested = false ∧ d'.freeAt ≤ limit := by
  induction h with
  | nil => exact ⟨hd, hfree⟩
  | @cons d e d' time times hrequested hfreeAt _ ih =>
    rw [List.forall_mem_cons] at htimes
    obtain ⟨hnone, hmax⟩ := catchUp_of_not_requested hd time
    refine ih (hrequested.trans hnone) ?_ htimes.2
    rw [hfreeAt, hmax]
    exact Nat.max_le.mpr ⟨hfree, htimes.1⟩

end Passes

/-- Steps that leave the requests and the flushes alone do so one after the other. -/
theorem foldl_keeps {α : Type} (step : Dispatcher → α → Dispatcher)
    (h : ∀ d x, (step d x).requested = d.requested ∧ (step d x).freeAt = d.freeAt) (xs : List α)
    (d : Dispatcher) :
    (xs.foldl step d).requested = d.requested ∧ (xs.foldl step d).freeAt = d.freeAt := by
  induction xs generalizing d with
  | nil => exact ⟨rfl, rfl⟩
  | cons x xs ih =>
    obtain ⟨hrequested, hfreeAt⟩ := ih (step d x)
    rw [List.foldl_cons, hrequested, hfreeAt]
    exact h d x

theorem forwardAt_eq (d : Dispatcher) (time : Nat) :
    (d.forwardAt time).requested = d.requested ∧ (d.forwardAt time).freeAt = d.freeAt := by
  unfold forwardAt
  split
  · exact ⟨requested_forward, freeAt_forward⟩
  · exact ⟨rfl, rfl⟩

end Steward.Delivery.Dispatcher

namespace Steward.Supervision

open Delivery Delivery.Dispatcher

variable {s : Supervisor} {jobs : List Job} {world : World} {script : Script} {horizon start : Nat}

/-! ## The events of a run -/

/-- A step takes a dispatcher on to the time of a round, and asks for nothing. -/
def IsCarrying (start : Nat) (step : Dispatcher → Round → Dispatcher) : Prop :=
  ∀ d r, (step d r).requested = (d.catchUp (start + r.time)).requested ∧
    (step d r).freeAt = (d.catchUp (start + r.time)).freeAt

theorem isCarrying_publish (start : Nat) : IsCarrying start (Supervisor.publish start) := by
  intro d r
  exact foldl_keeps publish (fun _ _ => ⟨requested_publish, freeAt_publish⟩) r.events
    (d.catchUp (start + r.time))

theorem isCarrying_relay (start : Nat) : IsCarrying start (Supervisor.relay start) := by
  intro d r
  have hpublish := isCarrying_publish start d r
  have hforward := forwardAt_eq (Supervisor.publish start d r) (start + r.time)
  have hreport := foldl_keeps report (fun _ _ => ⟨requested_report, freeAt_report⟩)
    (Supervisor.breakdowns r) ((Supervisor.publish start d r).forwardAt (start + r.time))
  exact ⟨hreport.1.trans (hforward.1.trans hpublish.1),
    hreport.2.trans (hforward.2.trans hpublish.2)⟩

theorem IsCarrying.passes {step : Dispatcher → Round → Dispatcher} (h : IsCarrying start step)
    (rs : List Round) (d : Dispatcher) :
    Passes (rs.map fun r => start + r.time) d (rs.foldl step d) := by
  induction rs generalizing d with
  | nil => exact .nil d
  | cons r rs ih => exact .cons (h d r).1 (h d r).2 (ih (step d r))

/-- While the events of a run are published, time passes from round to round. -/
theorem passes_deliver (s : Supervisor) (c : Course) :
    Passes (c.rounds.map fun r => s.now + r.time) s.dispatcher (s.deliver c) := by
  have hrelay := isCarrying_relay s.now
  have hpublish := isCarrying_publish s.now
  have hannounce : IsCarrying s.now
      (if s.forwardsOpening c then Supervisor.relay s.now else Supervisor.publish s.now) := by
    split
    · exact hrelay
    · exact hpublish
  unfold Course.rounds
  rw [List.map_append, List.map_append, List.map_append]
  have hopening := (hrelay.passes c.before s.dispatcher).append (hannounce.passes c.opening _)
  have hafter := hopening.append (hrelay.passes c.after _)
  exact hafter.append (hpublish.passes c.closing _)

/-- When the last worker has ended, no time of the run is later. -/
theorem Supervisor.time_le_of_finish {finish : Nat}
    (h : (s.course jobs world script horizon).finish = some finish) :
    ∀ time ∈ (s.course jobs world script horizon).rounds.map fun r => s.now + r.time,
      time ≤ s.now + finish := by
  have hunfolds := Course.ofWorkers_unfolds (s.workers jobs) (runSurroundings world script) horizon
  have hproper := isProper_lives (s.workers jobs) (runSurroundings world script) horizon
  intro time htime
  obtain ⟨r, hr, rfl⟩ := List.mem_map.mp htime
  exact Nat.add_le_add_left (hunfolds.time_le_finish hproper h r hr) s.now

/-! ## Returning in time -/

/-- If all workers end, and the run is followed for as long as it may wait then, it has returned
    when that time is over. -/
def Supervisor.ReturnsInTime (s : Supervisor) (jobs : List Job) (world : World) (script : Script)
    (horizon : Nat) : Prop :=
  ∀ finish, (s.run jobs world script horizon).1.course.finish = some finish →
    finish + s.settings.flushTimeout ≤ horizon →
    ∃ returned, (s.run jobs world script horizon).1.returned = some returned ∧
      returned ≤ finish + s.settings.flushTimeout

/-- A run returns when its wait is over. -/
theorem Supervisor.returned_le_iff {finish : Nat}
    (h : (s.course jobs world script horizon).finish = some finish)
    (hle : finish + s.settings.flushTimeout ≤ horizon) :
    (∃ returned, (s.run jobs world script horizon).1.returned = some returned ∧
        returned ≤ finish + s.settings.flushTimeout) ↔
      ((s.deliver (s.course jobs world script horizon)).awaitFlush (s.now + finish)
        s.settings.flushTimeout).1.time ≤ s.now + finish + s.settings.flushTimeout := by
  have hwait : s.await (s.course jobs world script horizon) horizon =
      (s.deliver (s.course jobs world script horizon)).awaitFlush (s.now + finish)
        s.settings.flushTimeout := by
    unfold Supervisor.await
    rw [h]
  have hreturned : (s.run jobs world script horizon).1.returned =
      if s.now + horizon < (s.await (s.course jobs world script horizon) horizon).1.time then none
      else some ((s.await (s.course jobs world script horizon) horizon).1.time - s.now) := rfl
  rw [hreturned, hwait]
  split
  · next hlate =>
    refine iff_of_false (by simp) ?_
    omega
  · simp only [Option.some.injEq, exists_eq_left']
    omega

/-- Whatever runs came before, a run returns in time, unless a request that an earlier one has
    abandoned still waits when the last worker has ended, and is not carried out in time. -/
theorem Supervisor.returnsInTime_iff (s : Supervisor) (jobs : List Job) (world : World)
    (script : Script) (horizon : Nat) :
    s.ReturnsInTime jobs world script horizon ↔
      ∀ finish, (s.run jobs world script horizon).1.course.finish = some finish →
        finish + s.settings.flushTimeout ≤ horizon →
        s.dispatcher.requested = true → s.now + finish < s.dispatcher.freeAt →
          (s.deliver (s.course jobs world script horizon)).serve.freeAt ≤
            s.now + finish + s.settings.flushTimeout := by
  refine forall_congr' fun finish => forall_congr' fun hfinish => forall_congr' fun hle => ?_
  have hpasses := passes_deliver s (s.course jobs world script horizon)
  rw [returned_le_iff hfinish hle, awaitFlush_time_le_iff]
  constructor
  · intro h hrequested hbusy
    -- nothing happens to the request in this run
    obtain ⟨hrequested', hfreeAt'⟩ := hpasses.of_busy fun time htime =>
      Nat.lt_of_le_of_lt (time_le_of_finish hfinish time htime) hbusy
    exact h (hrequested'.trans hrequested) (by rw [hfreeAt']; exact hbusy)
  · intro h hrequested hbusy
    obtain ⟨hrequested', hfreeAt'⟩ := hpasses.of_requested hrequested
    exact h hrequested' (by rw [← hfreeAt']; exact hbusy)

/-- A supervisor that has carried out two runs with nothing to do, for an observer to whom an event
    takes ten times as long as a run waits. -/
def Supervisor.afterTwo : Supervisor :=
  let s := Supervisor.start { flushTimeout := 100 } (fun _ _ _ => .built {})
    [{ name := "observer", pause := 1000 }]
  let s := (s.run [] {} { ends := some 0 } 3600000).2
  (s.run [] {} { ends := some 0 } 3600000).2

/-- The third run returns late: it waits until the observer is done with the events of the first. -/
theorem Supervisor.not_returnsInTime :
    ¬Supervisor.afterTwo.ReturnsInTime [] {} { ends := some 0 } 3600000 := by
  intro h
  have hfinish :
      (Supervisor.afterTwo.run [] {} { ends := some 0 } 3600000).1.course.finish = some 0 := by
    decide +kernel
  have hreturned :
      (Supervisor.afterTwo.run [] {} { ends := some 0 } 3600000).1.returned = some 1900 := by
    decide +kernel
  obtain ⟨returned, heq, hle⟩ := h 0 hfinish (by decide)
  rw [hreturned, Option.some.injEq] at heq
  rw [← heq] at hle
  exact absurd hle (by decide)

/-! ## Runs one after the other -/

/-- Nothing is left to do for the dispatcher. -/
structure Supervisor.IsFree (s : Supervisor) : Prop where
  requested : s.dispatcher.requested = false
  freeAt : s.dispatcher.freeAt ≤ s.now

theorem Supervisor.isFree_start (settings : Settings) (factory : Template.Factory)
    (observers : List Subscriber) : (Supervisor.start settings factory observers).IsFree :=
  ⟨rfl, Nat.le_refl 0⟩

/-- A run for which all events were handled leaves nothing to do. -/
theorem Supervisor.isFree_run
    (h : (s.await (s.course jobs world script horizon) horizon).1.complete = true) :
    (s.run jobs world script horizon).2.IsFree := by
  have hfree : (s.await (s.course jobs world script horizon) horizon).2.requested = false ∧
      (s.await (s.course jobs world script horizon) horizon).2.freeAt ≤
        (s.await (s.course jobs world script horizon) horizon).1.time := by
    unfold Supervisor.await at h ⊢
    dsimp only at h ⊢
    split at h
    · exact freeAt_le_of_complete h
    · exact absurd h (by simp)
  exact ⟨hfree.1, hfree.2⟩

/-- If nothing is left to do the next run returns in time. -/
theorem Supervisor.IsFree.returnsInTime (h : s.IsFree) (jobs : List Job) (world : World)
    (script : Script) (horizon : Nat) : s.ReturnsInTime jobs world script horizon := by
  rw [returnsInTime_iff]
  intro finish _ _ hrequested
  rw [h.requested] at hrequested
  exact absurd hrequested (by simp)

/-- If nothing is left to do the run after the next returns in time as well, whatever the next
    leaves. -/
theorem Supervisor.IsFree.returnsInTime_run (h : s.IsFree) {jobs' : List Job} {world' : World}
    {script' : Script} {horizon' : Nat} :
    (s.run jobs world script horizon).2.ReturnsInTime jobs' world' script' horizon' := by
  have hclear : (s.await (s.course jobs world script horizon) horizon).2.requested = true →
      (s.await (s.course jobs world script horizon) horizon).2.freeAt ≤
        (s.await (s.course jobs world script horizon) horizon).1.time := by
    have hpasses := passes_deliver s (s.course jobs world script horizon)
    unfold Supervisor.await
    dsimp only
    split
    · next finish hfinish =>
      have hfree : s.dispatcher.freeAt ≤ s.now + finish := Nat.le_add_right_of_le h.freeAt
      obtain ⟨hrequested, hfreeAt⟩ :=
        hpasses.of_not_requested h.requested hfree (time_le_of_finish hfinish)
      exact freeAt_le_of_requested hrequested hfreeAt
    · -- a run that is left at the horizon asks for nothing
      intro hwait
      have hwait' := (hpasses.of_requested (of_requested_catchUp hwait).1).1
      rw [h.requested] at hwait'
      exact absurd hwait' (by simp)
  rw [returnsInTime_iff]
  intro finish _ _ hrequested hbusy
  have hle : (s.run jobs world script horizon).2.dispatcher.freeAt ≤
      (s.run jobs world script horizon).2.now := hclear hrequested
  omega

end Steward.Supervision
