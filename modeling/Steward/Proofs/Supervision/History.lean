import Steward.Proofs.Delivery.Publishing
import Steward.Proofs.Supervision.Course

/-!
# Runs one after the other

A supervisor carries out runs, with or without rests between them (`Supervisor.after`). Whatever it
has carried out before, a run publishes the events of its course at their times, numbered from where
the last run has left off; the settings and the factory stay.

Results:
* `Supervisor.publishesOnTime_run`, `Supervisor.publishes_run`: what a run publishes.
* `Supervisor.publishes_seasoned`: what some runs mean for the dispatcher.
* `Supervisor.seasoned_keeps`: what no run changes.
* `Supervisor.of_returned`: when a run returns.
-/

namespace Steward.Supervision

open Delivery Delivery.Dispatcher

variable {s : Supervisor} {jobs : List Job} {world : World} {script : Script} {horizon : Nat}

/-! ## Runs and rests -/

/-- A run that a supervisor is to carry out. -/
structure Commission where
  /-- How long the supervisor rests before it, in milliseconds. -/
  pause : Nat := 0
  /-- The resources. -/
  jobs : List Job
  /-- The world in the beginning. -/
  world : World := {}
  /-- What changes the world, until it is time to stop. -/
  script : Script := {}
  /-- How long the run is followed. -/
  horizon : Nat

namespace Supervisor

/-- The supervisor after a rest, during which its dispatcher goes on. -/
def rest (s : Supervisor) (ms : Nat) : Supervisor :=
  if ms = 0 then s
  else
    { s with
      dispatcher := s.dispatcher.catchUp (s.now + ms)
      now := s.now + ms
      isFresh := false }

/-- Carries out a run behind a rest. -/
def carryOut (s : Supervisor) (c : Commission) : Outcome × Supervisor :=
  (s.rest c.pause).run c.jobs c.world c.script c.horizon

/-- The supervisor after some runs. -/
def after (s : Supervisor) (history : List Commission) : Supervisor :=
  history.foldl (fun s c => (s.carryOut c).2) s

/-- A supervisor that has carried out some runs, and has rested since. -/
def seasoned (settings : Settings) (factory : Template.Factory) (observers : List Subscriber)
    (history : List Commission) (ms : Nat) : Supervisor :=
  ((start settings factory observers).after history).rest ms

end Supervisor

/-! ## The events of a run -/

/-- The events of a course, in the order in which they are published. -/
def Course.allEvents (c : Course) : List Event := c.rounds.flatMap Round.events

/-- When the events of a course are published, in a run that begins at a time. -/
def Course.timetable (start : Nat) (c : Course) : List (Nat × List Event) :=
  c.rounds.map fun r => (start + r.time, r.events)

theorem announces_publish (start : Nat) (d : Dispatcher) (r : Round) :
    Announces [(start + r.time, r.events)] d (Supervisor.publish start d r) :=
  .cons (.nil .refl rfl) (.nil _)

/-- That workers break down is reported, and nothing is published. -/
theorem publishes_breakdowns (d : Dispatcher) (r : Round) :
    Publishes [] d ((Supervisor.breakdowns r).foldl report d) := by
  have hskipped : ∀ b ∈ Supervisor.breakdowns r, b.skipped = 0 := by
    intro b hb
    obtain ⟨a, -, ha⟩ := List.mem_filterMap.mp hb
    split at ha
    · rw [← Option.some.inj ha]
      rfl
    · exact absurd ha (by simp)
  generalize Supervisor.breakdowns r = bs at hskipped
  induction bs generalizing d with
  | nil => exact .nil .refl rfl
  | cons b bs ih =>
    rw [List.forall_mem_cons] at hskipped
    have hreport : Publishes [] d (d.report b) := .nil (Step.report d hskipped.1).steps rfl
    exact hreport.append (ih (d.report b) hskipped.2)

theorem announces_relay (start : Nat) (d : Dispatcher) (r : Round) :
    Announces [(start + r.time, r.events)] d (Supervisor.relay start d r) :=
  .cons ((publishes_forwardAt _ (start + r.time)).append (publishes_breakdowns _ r)) (.nil _)

/-- All events of a course are published at their times, whatever state the dispatcher is in. -/
theorem Supervisor.announces_deliver (s : Supervisor) (c : Course) :
    Announces (c.timetable s.now) s.dispatcher (s.deliver c) := by
  have hannounce : ∀ d r, Announces [(s.now + r.time, r.events)] d
      ((if s.forwardsOpening c then Supervisor.relay s.now else Supervisor.publish s.now) d r) := by
    intro d r
    split
    · exact announces_relay s.now d r
    · exact announces_publish s.now d r
  have hbefore := announces_foldl (announces_relay s.now) c.before s.dispatcher
  have hopening := hbefore.append (announces_foldl hannounce c.opening _)
  have hafter := hopening.append (announces_foldl (announces_relay s.now) c.after _)
  have hclosing := hafter.append (announces_foldl (announces_publish s.now) c.closing _)
  rwa [← List.map_append, ← List.map_append, ← List.map_append] at hclosing

/-- Behind the last event of a run nothing is published. -/
theorem Supervisor.publishes_await (s : Supervisor) (c : Course) (horizon : Nat) :
    Publishes [] (s.deliver c) (s.await c horizon).2 := by
  unfold await
  dsimp only
  split
  · exact publishes_awaitFlush _ _ _
  · exact publishes_catchUp _ _

/-- In a run that leaves the dispatcher `d`, the events of a course are published at their times,
    and nothing else. -/
def Supervisor.PublishesOnTime (s : Supervisor) (c : Course) (d : Dispatcher) : Prop :=
  ∃ e, Announces (c.timetable s.now) s.dispatcher e ∧ Publishes [] e d

theorem Supervisor.publishesOnTime_run (s : Supervisor) (jobs : List Job) (world : World)
    (script : Script) (horizon : Nat) :
    s.PublishesOnTime (s.run jobs world script horizon).1.course
      (s.run jobs world script horizon).2.dispatcher :=
  ⟨_, s.announces_deliver (s.course jobs world script horizon), s.publishes_await _ horizon⟩

theorem Supervisor.publishes_run (s : Supervisor) (jobs : List Job) (world : World)
    (script : Script) (horizon : Nat) :
    Publishes (s.run jobs world script horizon).1.course.allEvents s.dispatcher
      (s.run jobs world script horizon).2.dispatcher := by
  obtain ⟨e, htimed, hquiet⟩ := s.publishesOnTime_run jobs world script horizon
  have hall := htimed.publishes.append hquiet
  rwa [Course.timetable, List.flatMap_map, List.append_nil] at hall

/-! ## After some runs -/

theorem Supervisor.publishes_rest (s : Supervisor) (ms : Nat) :
    Publishes [] s.dispatcher (s.rest ms).dispatcher := by
  unfold rest
  split
  · exact .nil .refl rfl
  · exact publishes_catchUp _ _

theorem Supervisor.publishes_carryOut (s : Supervisor) (c : Commission) :
    ∃ es, Publishes es s.dispatcher (s.carryOut c).2.dispatcher :=
  ⟨_, (s.publishes_rest c.pause).append ((s.rest c.pause).publishes_run _ _ _ _)⟩

theorem Supervisor.publishes_after (s : Supervisor) (history : List Commission) :
    ∃ es, Publishes es s.dispatcher (s.after history).dispatcher := by
  induction history generalizing s with
  | nil => exact ⟨[], .nil .refl rfl⟩
  | cons c history ih =>
    obtain ⟨es, hfirst⟩ := s.publishes_carryOut c
    obtain ⟨fs, hrest⟩ := ih (s.carryOut c).2
    exact ⟨es ++ fs, hfirst.append hrest⟩

theorem Supervisor.rest_keeps (s : Supervisor) (ms : Nat) :
    (s.rest ms).settings = s.settings ∧ (s.rest ms).factory = s.factory ∧
      (s.rest ms).told = s.told := by
  unfold rest
  split <;> exact ⟨rfl, rfl, rfl⟩

/-- The settings and the factory stay what they are. -/
theorem Supervisor.after_keeps (s : Supervisor) (history : List Commission) :
    (s.after history).settings = s.settings ∧ (s.after history).factory = s.factory := by
  induction history generalizing s with
  | nil => exact ⟨rfl, rfl⟩
  | cons c history ih =>
    obtain ⟨hsettings, hfactory⟩ := ih (s.carryOut c).2
    obtain ⟨hsettings', hfactory', -⟩ := s.rest_keeps c.pause
    exact ⟨hsettings.trans hsettings', hfactory.trans hfactory'⟩

/-- What was told of the reports is a part of them. -/
theorem Supervisor.told_reports_after_le (s : Supervisor) (history : List Commission)
    (h : s.told.reports ≤ s.dispatcher.reports.length) :
    (s.after history).told.reports ≤ (s.after history).dispatcher.reports.length := by
  induction history generalizing s with
  | nil => exact h
  | cons c history ih => exact ih (s.carryOut c).2 (Nat.le_refl _)

section
variable (settings : Settings) (factory : Template.Factory) (observers : List Subscriber)
  (history : List Commission) (ms : Nat)

theorem Supervisor.publishes_seasoned : ∃ es, Publishes es
    (start settings factory observers).dispatcher
      (seasoned settings factory observers history ms).dispatcher := by
  obtain ⟨es, hafter⟩ := (start settings factory observers).publishes_after history
  exact ⟨es ++ [], hafter.append (publishes_rest _ ms)⟩

theorem Supervisor.steps_seasoned :
    Steps (start settings factory observers).dispatcher
      (seasoned settings factory observers history ms).dispatcher := by
  obtain ⟨es, hes⟩ := publishes_seasoned settings factory observers history ms
  exact hes.steps

/-- In runs, events are published in the order in which they are created. -/
theorem Supervisor.published_seasoned :
    (seasoned settings factory observers history ms).dispatcher.published =
      (seasoned settings factory observers history ms).dispatcher.created := by
  obtain ⟨es, hes⟩ := publishes_seasoned settings factory observers history ms
  rw [hes.outbox]
  rfl

theorem Supervisor.counter_seasoned :
    (seasoned settings factory observers history ms).dispatcher.counter =
      .ofNat (seasoned settings factory observers history ms).dispatcher.published.length := by
  obtain ⟨es, hes⟩ := publishes_seasoned settings factory observers history ms
  rw [hes.outbox]
  show 0 + UInt64.ofNat es.length = .ofNat (Event.numberFrom 0 es).length
  rw [Event.length_numberFrom, UInt64.zero_add]

theorem Supervisor.seasoned_keeps :
    (seasoned settings factory observers history ms).settings = settings ∧
      (seasoned settings factory observers history ms).factory = factory := by
  obtain ⟨hsettings, hfactory⟩ := (start settings factory observers).after_keeps history
  obtain ⟨hsettings', hfactory', -⟩ :=
    ((start settings factory observers).after history).rest_keeps ms
  exact ⟨hsettings'.trans hsettings, hfactory'.trans hfactory⟩

theorem Supervisor.told_reports_seasoned_le :
    (seasoned settings factory observers history ms).told.reports ≤
      (seasoned settings factory observers history ms).dispatcher.reports.length := by
  obtain ⟨-, -, htold⟩ := ((start settings factory observers).after history).rest_keeps ms
  have hafter := (start settings factory observers).told_reports_after_le history (Nat.le_refl 0)
  have hrest := (reports_grow (publishes_rest ((start settings factory observers).after history)
    ms).steps).length_le
  unfold seasoned
  rw [htold]
  exact Nat.le_trans hafter hrest

end

/-! ## When a run returns -/

/-- A run that returns does so at the end of its wait, and not before its workers have ended. -/
theorem Supervisor.of_returned {returned : Nat}
    (h : (s.run jobs world script horizon).1.returned = some returned) :
    ∃ finish, (s.run jobs world script horizon).1.course.finish = some finish ∧
      finish ≤ returned ∧ (s.run jobs world script horizon).2.now = s.now + returned ∧
      s.await (s.run jobs world script horizon).1.course horizon =
        (s.deliver (s.run jobs world script horizon).1.course).awaitFlush (s.now + finish)
          s.settings.flushTimeout := by
  have hreturned : (if s.now + horizon <
        (s.await (s.course jobs world script horizon) horizon).1.time then none
      else some ((s.await (s.course jobs world script horizon) horizon).1.time - s.now)) =
      some returned := h
  show ∃ finish, (s.course jobs world script horizon).finish = some finish ∧ finish ≤ returned ∧
    (s.await (s.course jobs world script horizon) horizon).1.time = s.now + returned ∧
    s.await (s.course jobs world script horizon) horizon = _
  split at hreturned
  · exact absurd hreturned (by simp)
  · next hlate =>
    have heq := Option.some.inj hreturned
    unfold await at hlate heq ⊢
    dsimp only at hlate heq ⊢
    split at hlate
    · next finish hfinish =>
      have hle := le_time_awaitFlush (s.deliver (s.course jobs world script horizon))
        (s.now + finish) s.settings.flushTimeout
      rw [hfinish] at heq ⊢
      dsimp only at heq
      refine ⟨finish, rfl, ?_, ?_, rfl⟩
      · omega
      · omega
    · -- a run that is left at the horizon does not return
      exact absurd (Nat.lt_succ_self _) hlate

end Steward.Supervision
