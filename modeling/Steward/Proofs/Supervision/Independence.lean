import Steward.Proofs.Supervision.History
import Steward.Proofs.Supervision.Horizon
import Steward.Proofs.Supervision.Naming

/-!
# What a worker does depends on nothing but itself

The life of a worker depends on its resource, on what the factory does with that resource, on the
pause between attempts, and on what surrounds it. Neither the other workers of the run nor the
subscribers nor the runs before have any part in it.

Time does not pass while a worker repeats attempts without any pause. So runs with different workers
are compared as far as both are told, which is up to the horizon if there is a pause. And what is told
about a resource can be told apart by its name only if no other resource has the same.

Results:
* `life_congr`: a life depends on the factory at the name of the resource only.
* `Supervisor.reach_eq_horizon`: how far a run is told.
* `Supervisor.deeds_independent_of_siblings`: two runs that have a resource in common.
* `Supervisor.siblings_make_difference`: a sibling that stops time, and one of the same name.
* `Supervisor.course_independent_of_history`: two supervisors that carry out the same run.
-/

namespace Steward.Supervision

open Delivery Delivery.Dispatcher
open Backend (Client Connector)

variable {w : Worker} {s s' : Supervisor} {jobs jobs' : List Job} {job : Job} {i i' : Nat}
  {world : World} {script : Script} {horizon : Nat}

/-! ## The factory -/

section
variable {factory : Template.Factory} {around : Surroundings}

theorem connect_factory (w : Worker) (factory : Template.Factory) (around : Surroundings)
    (position : Nat) (c : Connector) (tries before : Nat) (m : Moment) :
    { w with factory := factory }.connect around position c tries before m =
      w.connect around position c tries before m := by
  induction tries generalizing before m with
  | zero => rfl
  | succ tries ih =>
    simp only [Worker.connect, ih]
    rfl

theorem connectAll_factory (w : Worker) (factory : Template.Factory) (around : Surroundings)
    (tries : Nat) (cs : List (Connector × Nat)) (m : Moment) :
    { w with factory := factory }.connectAll around tries cs m =
      w.connectAll around tries cs m := by
  induction cs generalizing m with
  | nil => rfl
  | cons c cs ih =>
    obtain ⟨c, position⟩ := c
    simp only [Worker.connectAll, connect_factory, ih]

theorem buildAndWatch_congr (h : factory w.name = w.factory w.name) (around : Surroundings)
    (horizon : Nat) (clients : List Client) (m : Moment) :
    { w with factory := factory }.buildAndWatch around horizon clients m =
      w.buildAndWatch around horizon clients m := by
  simp only [Worker.buildAndWatch, h]
  rfl

/-- A life depends on the factory at the name of the resource only. -/
theorem life_congr (h : factory w.name = w.factory w.name) (around : Surroundings) (horizon : Nat) :
    { w with factory := factory }.life around horizon = w.life around horizon := by
  have hafter : ∀ p, { w with factory := factory }.afterConnecting around horizon p =
      w.afterConnecting around horizon p := by
    intro p
    simp only [Worker.afterConnecting, buildAndWatch_congr h]
  unfold Worker.life
  dsimp only
  rw [connectAll_factory, hafter]
  rfl

end

/-- Workers of two supervisors for the same resource lead the same life, wherever the resource
    stands, if the pause between attempts is the same and both factories do the same with it. -/
theorem Supervisor.life_worker_eq {name : String} (hname : job.resource.configuredName = some name)
    (hdelay : s'.settings.retryDelay = s.settings.retryDelay)
    (hfactory : s'.factory name = s.factory name) (i i' : Nat) (around : Surroundings)
    (horizon : Nat) :
    (s'.worker job i').life around horizon = (s.worker job i).life around horizon := by
  have hworker : s'.worker job i' = { s.worker job i with factory := s'.factory } := by
    unfold worker Config.Resource.withDefaultName
    rw [hname, hdelay]
    rfl
  have hown : (s.worker job i).name = name := by
    unfold worker Config.Resource.withDefaultName Config.Resource.name
    rw [hname]
    rfl
  rw [hworker]
  refine life_congr ?_ around horizon
  rw [hown]
  exact hfactory

/-! ## How far a run is told -/

/-- The time up to which a run is told. -/
def Supervisor.reach (s : Supervisor) (jobs : List Job) (world : World) (script : Script)
    (horizon : Nat) : Nat :=
  Course.toldUntil horizon
    ((s.workers jobs).map fun w => w.life (runSurroundings world script) horizon)

theorem Supervisor.reach_eq_horizon (hpause : 0 < s.settings.retryDelay) (jobs : List Job)
    (world : World) (script : Script) (horizon : Nat) :
    s.reach jobs world script horizon = horizon := by
  have hle : s.reach jobs world script horizon ≤ horizon :=
    (Course.le_toldUntil_iff.mp (Nat.le_refl _)).1
  refine Nat.le_antisymm hle (Course.le_toldUntil_iff.mpr ⟨Nat.le_refl _, ?_⟩)
  intro life hlife time htime
  obtain ⟨w, hw, rfl⟩ := List.mem_map.mp hlife
  obtain ⟨j, -, rfl⟩ := List.mem_map.mp hw
  have hpause' : 0 < (s.worker j.1 j.2).retryDelay := hpause
  cases hend : ((s.worker j.1 j.2).life (runSurroundings world script) horizon).ending with
  | pending until' =>
    rw [hend] at htime
    rw [← Option.some.inj htime]
    exact le_of_life_pending hpause' hend
  | reached | stopped | broken =>
    rw [hend] at htime
    exact absurd htime (by simp [Ending.told?])

/-! ## Siblings -/

section
variable (hjob : jobs[i]? = some job)
include hjob

theorem Supervisor.getElem?_lives (s : Supervisor) (around : Surroundings) (horizon : Nat) :
    ((s.workers jobs).map fun w => w.life around horizon)[i]? =
      some ((s.worker job i).life around horizon) := by
  simp [workers, hjob]

/-- What the worker for a job does in a run. -/
theorem Supervisor.deedsOf_run (s : Supervisor) (world : World) (script : Script) (horizon : Nat) :
    deedsOf i (s.run jobs world script horizon).1.course.rounds =
      (story ((s.worker job i).life (runSurroundings world script) horizon).entries).filter
        fun x => decide (x.1 ≤ s.reach jobs world script horizon) :=
  (Course.ofWorkers_unfolds (s.workers jobs) (runSurroundings world script) horizon).deedsOf_rounds
    (isProper_lives _ _ _) (getElem?_lives hjob s _ _)

/-- What it does if all workers of the run end. -/
theorem Supervisor.deedsOf_run_of_finish (s : Supervisor) (world : World) (script : Script)
    (horizon : Nat) (hfinish : (s.run jobs world script horizon).1.course.finish.isSome = true) :
    deedsOf i (s.run jobs world script horizon).1.course.rounds =
      story ((s.worker job i).life (runSurroundings world script) horizon).entries :=
  ((Course.ofWorkers_unfolds (s.workers jobs) (runSurroundings world script)
    horizon).deedsOf_rounds_eq (isProper_lives _ _ _) (getElem?_lives hjob s _ _) hfinish).2

end

/-- In two runs that have a named resource in common, its worker does the same at the same times,
    whatever the other resources are: up to each time to which both runs are told, over the whole of
    them if there is a pause between attempts, and in any case if both come to their end. What is
    told under its name is what its worker tells, if no other worker of the run has this name. -/
theorem Supervisor.deeds_independent_of_siblings {name : String} (hjob : jobs[i]? = some job)
    (hjob' : jobs'[i']? = some job) (hname : job.resource.configuredName = some name)
    (hdelay : s'.settings.retryDelay = s.settings.retryDelay)
    (hfactory : s'.factory name = s.factory name) (world : World) (script : Script)
    (horizon : Nat) :
    (∀ time, time ≤ s.reach jobs world script horizon →
      time ≤ s'.reach jobs' world script horizon →
        (deedsOf i (s.run jobs world script horizon).1.course.rounds).filter (·.1 ≤ time) =
          (deedsOf i' (s'.run jobs' world script horizon).1.course.rounds).filter (·.1 ≤ time)) ∧
    (0 < s.settings.retryDelay →
      deedsOf i (s.run jobs world script horizon).1.course.rounds =
        deedsOf i' (s'.run jobs' world script horizon).1.course.rounds) ∧
    ((s.run jobs world script horizon).1.course.finish.isSome = true →
      (s'.run jobs' world script horizon).1.course.finish.isSome = true →
        deedsOf i (s.run jobs world script horizon).1.course.rounds =
          deedsOf i' (s'.run jobs' world script horizon).1.course.rounds) ∧
    (IsOnly name i (s.workers jobs) →
      toldUnder name (s.run jobs world script horizon).1.course.rounds =
        timedEvents (deedsOf i (s.run jobs world script horizon).1.course.rounds)) ∧
    (IsOnly name i' (s'.workers jobs') →
      toldUnder name (s'.run jobs' world script horizon).1.course.rounds =
        timedEvents (deedsOf i' (s'.run jobs' world script horizon).1.course.rounds)) := by
  have hlife := life_worker_eq hname hdelay hfactory i i' (runSurroundings world script) horizon
  refine ⟨?_, ?_, ?_, fun honly => Course.toldUnder_ofWorkers honly _ _,
    fun honly => Course.toldUnder_ofWorkers honly _ _⟩
  · intro time hreach hreach'
    rw [deedsOf_run hjob, deedsOf_run hjob', hlife, List.filter_filter, List.filter_filter]
    refine List.filter_congr fun x _ => ?_
    by_cases hx : x.1 ≤ time
    · simp [hx, Nat.le_trans hx hreach, Nat.le_trans hx hreach']
    · simp [hx]
  · intro hpause
    have hpause' : 0 < s'.settings.retryDelay := by rwa [hdelay]
    rw [deedsOf_run hjob, deedsOf_run hjob', hlife, reach_eq_horizon hpause,
      reach_eq_horizon hpause']
  · intro hfinish hfinish'
    rw [deedsOf_run_of_finish hjob _ _ _ _ hfinish, deedsOf_run_of_finish hjob' _ _ _ _ hfinish',
      hlife]

/-- A resource with nothing but a name. -/
def Job.named (name : String) : Job := { resource := { configuredName := some name } }

/-- A supervisor whose factory builds one resource only, and breaks down on all others. -/
def Supervisor.selective : Supervisor :=
  start {} (fun name _ _ => if name = "kept" then .built { lifetime := some 50 } else .broken) []

theorem Supervisor.deeds_beside_breaking_sibling :
    (deedsOf 0 (selective.run [.named "kept"] {} {} 1000).1.course.rounds).length = 12 ∧
    deedsOf 0 (selective.run [.named "kept"] {} {} 1000).1.course.rounds =
      deedsOf 1 (selective.run [.named "breaking", .named "kept"] {} {} 1000).1.course.rounds := by
  have hjob : [Job.named "kept"][0]? = some (.named "kept") := rfl
  have hjob' : [Job.named "breaking", Job.named "kept"][1]? = some (.named "kept") := rfl
  obtain ⟨-, hpause, -⟩ :=
    deeds_independent_of_siblings (s := selective) hjob hjob' rfl rfl rfl {} {} 1000
  exact ⟨by decide +kernel, hpause (by decide)⟩

/-- A resource with a backend that refuses each attempt at once. -/
def Job.refused : Job where
  resource := { configuredName := some "refused" }
  added :=
    [{ name := "far", attempt := fun _ => { outcome := fun _ => .failed (.failed "far" "refused") } }]

/-- The same supervisor without a pause between attempts. -/
def Supervisor.hasty : Supervisor := { selective with settings := { retryDelay := 0 } }

/-- The other resources of a run make a difference if there is no pause between attempts: beside a
    sibling that fails again and again at once, time stands still, and a worker does not come to its
    end. And if two resources have one name, the events of both are told under it. -/
theorem Supervisor.siblings_make_difference :
    deedsOf 0 (hasty.run [.named "kept"] {} {} 100).1.course.rounds ≠
      deedsOf 1 (hasty.run [.refused, .named "kept"] {} {} 100).1.course.rounds ∧
    toldUnder "kept" (selective.run [.named "kept"] {} {} 100).1.course.rounds ≠
      toldUnder "kept" (selective.run [.named "kept", .named "kept"] {} {} 100).1.course.rounds := by
  constructor
  · -- the monitor works for 50 milliseconds, which pass only if the worker is alone
    intro hsame
    exact absurd (congrArg List.length hsame) (by decide +kernel)
  · intro hsame
    exact absurd (congrArg List.length hsame) (by decide +kernel)

/-! ## Subscribers and former runs -/

/-- The course of a run depends on nothing of the supervisor but the pause between attempts and the
    factory. -/
theorem Supervisor.course_congr (hdelay : s.settings.retryDelay = s'.settings.retryDelay)
    (hfactory : s.factory = s'.factory) (jobs : List Job) (world : World) (script : Script)
    (horizon : Nat) : s.course jobs world script horizon = s'.course jobs world script horizon := by
  have hworker : s.worker = s'.worker := by
    funext job position
    unfold worker
    rw [hdelay, hfactory]
  unfold course
  rw [hworker]

/-- What happens in a run, and the world that it leaves, are the same for all supervisors with the
    same factory and the same pause between attempts: the subscribers, the bus, the patience and the
    runs before make no difference. All events are published at their times, and the run does not
    return before its workers have ended. -/
theorem Supervisor.course_independent_of_history (retryDelay : Nat) (factory : Template.Factory)
    (flush flush' bus bus' : Nat) (observers observers' : List Subscriber)
    (history history' : List Commission) (ms ms' : Nat) (jobs : List Job) (world : World)
    (script : Script) (horizon : Nat) :
    let s := seasoned ⟨retryDelay, flush, bus⟩ factory observers history ms
    let s' := seasoned ⟨retryDelay, flush', bus'⟩ factory observers' history' ms'
    let run := s.run jobs world script horizon
    let run' := s'.run jobs world script horizon
    run.1.course = run'.1.course ∧ run.1.world = run'.1.world ∧
      s.PublishesOnTime run.1.course run.2.dispatcher ∧
      s'.PublishesOnTime run.1.course run'.2.dispatcher ∧
      ∀ returned, run.1.returned = some returned ∨ run'.1.returned = some returned →
        ∃ finish, run.1.course.finish = some finish ∧ finish ≤ returned := by
  intro s s' run run'
  have hcourse : run.1.course = run'.1.course := by
    obtain ⟨hsettings, hfactory⟩ :=
      seasoned_keeps ⟨retryDelay, flush, bus⟩ factory observers history ms
    obtain ⟨hsettings', hfactory'⟩ :=
      seasoned_keeps ⟨retryDelay, flush', bus'⟩ factory observers' history' ms'
    refine course_congr ?_ ?_ jobs world script horizon
    · rw [hsettings, hsettings']
    · rw [hfactory, hfactory']
  refine ⟨hcourse, ?_, s.publishesOnTime_run jobs world script horizon, ?_, ?_⟩
  · show script.worldAt world (run.1.course.finish.getD horizon) =
      script.worldAt world (run'.1.course.finish.getD horizon)
    rw [hcourse]
  · rw [hcourse]
    exact s'.publishesOnTime_run jobs world script horizon
  · rintro returned (hreturned | hreturned)
    · obtain ⟨finish, hfinish, hle, -⟩ := of_returned hreturned
      exact ⟨finish, hfinish, hle⟩
    · obtain ⟨finish, hfinish, hle, -⟩ := of_returned hreturned
      exact ⟨finish, by rw [hcourse]; exact hfinish, hle⟩

end Steward.Supervision
