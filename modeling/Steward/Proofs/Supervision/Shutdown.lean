import Mathlib.Data.Set.Finite.Lattice
import Steward.Proofs.Supervision.EventTrace
import Steward.Proofs.Supervision.Horizon
import Steward.Proofs.Supervision.Release

/-!
# Stopping a run

A run that is asked to stop announces it, lets its workers take their leave, and announces that all
of them have ended; that is the last thing it does. `KeepsProtocol` says this of a course in detail:
when the run is asked to stop, what no worker begins any more, and when the last of them has ended.

Results:
* `Unfolds.isGreatest_finish`: a run that was asked to stop ends with the last monitor that still
  worked, or at once.
* `Course.keepsProtocol`: each course keeps the protocol.
* `Supervisor.run_shutdown`: each run does, and a run that announces that it was asked to stop
  announces that all have ended, if it is told for long enough.
-/

namespace Steward.Supervision

open Troupe

/-! ## The protocol -/

/-- True if an event of a kind is published. -/
def Act.tells (kind : EventKind) (a : Act) : Bool := a.deed.event?.any fun e => e.kind = kind

/-- What is done in some rounds, in order, and when. -/
def actsOf (rs : List Round) : List (Nat × Act) :=
  rs.flatMap fun r => r.acts.map fun a => (r.time, a)

/-- What is done in a course, in order, and when. -/
def Course.acts (c : Course) : List (Nat × Act) := actsOf c.rounds

/-- An event of a kind is published in a course. -/
def Course.Announces (c : Course) (kind : EventKind) : Prop := ∃ x ∈ c.acts, x.2.tells kind

/-- The times at which monitors are given up after all workers were asked to stop. -/
def Course.dismissals (c : Course) : Set Nat :=
  {time | ∃ i, (time, Deed.dismiss) ∈ deedsOf i c.after}

/-- How the course of some workers goes about the stop, told up to a horizon. -/
structure KeepsProtocol (ws : List Worker) (s : Surroundings) (horizon : Nat) (c : Course) :
    Prop where
  /-- The run announces once at most that it was asked to stop. -/
  request_once : c.acts.countP (fun x => x.2.tells .shutdownRequested) ≤ 1
  /-- It does so at the time at which it is asked. -/
  request_time : ∀ x ∈ c.acts, x.2.tells .shutdownRequested → s.stop = some x.1
  /-- It does so if it is asked in the very beginning, or if a worker has something to do at that
      time or later: the stop is served before the last worker ends at the same time. -/
  request_iff : c.Announces .shutdownRequested ↔ ∃ stop, s.stop = some stop ∧ stop ≤ horizon ∧
    (∀ w ∈ ws, (w.life s horizon).ending.told? = none) ∧
      (stop = 0 ∨ ∃ w ∈ ws, ∃ e ∈ (w.life s horizon).entries, stop ≤ e.moment.time)
  /-- Behind this announcement nothing is begun: no attempt to connect, no building, no watch. -/
  begins_nothing : ∀ pre x post, c.acts = pre ++ x :: post → x.2.tells .shutdownRequested →
    ∀ y ∈ post, y.2.deed.begins = false
  /-- That all have ended is announced last, once, and behind the other announcement. -/
  all_stopped_last : ∀ pre x post, c.acts = pre ++ x :: post → x.2.tells .allStopped →
    post = [] ∧ (∃ y ∈ pre, y.2.tells .shutdownRequested) ∧ ∀ y ∈ pre, y.2.tells .allStopped = false
  /-- It is announced behind the other, as soon as all workers have ended. -/
  all_stopped_iff : c.Announces .allStopped ↔ c.Announces .shutdownRequested ∧
    ∀ w ∈ ws, (w.life s horizon).EndsWhile fun time => time ≤ horizon
  /-- By then each worker has come to the end of its life and has closed what it has obtained. -/
  all_stopped_ended : c.Announces .allStopped → ∀ i w, ws[i]? = some w →
    (w.life s horizon).ending.told? = none ∧
      deedsOf i c.rounds = story (w.life s horizon).entries ∧
      (deedsOf i c.rounds).filterMap (fun x => x.2.closed?) =
        (deedsOf i c.rounds).filterMap fun x => x.2.obtained?
  /-- It is the time at which the last monitor is given up that was still working, or that of the
      stop if there is none. -/
  all_stopped_time : ∀ x ∈ c.acts, x.2.tells .allStopped →
    ∃ stop, s.stop = some stop ∧ IsGreatest (insert stop c.dismissals) x.1
  /-- If all workers end before the run is asked to stop, neither is announced, and the run ends
      when the last of them does. -/
  quiet : s.stop ≠ some 0 →
    (∀ w ∈ ws, (w.life s horizon).EndsWhile fun time => time ≤ horizon ∧ s.stopped time = false) →
      ¬c.Announces .shutdownRequested ∧ ¬c.Announces .allStopped ∧
        ∃ finish, c.finish = some finish ∧ (∀ x ∈ c.acts, x.1 ≤ finish) ∧
          (ws = [] ∧ finish = 0 ∨ ∃ x ∈ c.acts, x.1 = finish)

/-! ## What workers announce -/

variable {ws : List Worker} {w : Worker} {s : Surroundings} {horizon told i : Nat} {c : Course}
  {lives : List Passage} {life : Passage} {rs qs : List Round}

/-- The kinds of events that tell about a run as a whole. -/
def IsRunKind (k : EventKind) : Prop := k = .shutdownRequested ∨ k = .allStopped

theorem not_isRunKind_of_isBackendKind {k : EventKind} (h : IsBackendKind k) : ¬IsRunKind k := by
  rcases h with rfl | rfl | rfl | rfl <;> simp [IsRunKind]

theorem not_isRunKind_lastEvents {backends : List Event} :
    ∀ e ∈ lastEvents w backends, ¬IsRunKind e.kind := by
  simp [lastEvents, IsRunKind, Event.withReleased, Worker.event]

theorem IsComplete.not_isRunKind {es : List Event} (h : IsComplete w es) :
    ∀ e ∈ es, ¬IsRunKind e.kind := by
  obtain ⟨backends, build, hblocks, hbuild, rfl⟩ := h
  have hkind : ¬IsRunKind build.kind := by
    obtain rfl | ⟨reason, rfl⟩ := hbuild <;> simp [IsRunKind, Worker.event]
  refine List.forall_mem_append.mpr ⟨List.forall_mem_append.mpr ⟨?_, by simpa using hkind⟩,
    not_isRunKind_lastEvents⟩
  refine List.forall_mem_cons.mpr ⟨by simp [IsRunKind, Worker.event], fun e he => ?_⟩
  exact not_isRunKind_of_isBackendKind (hblocks.isBackendKind e he)

theorem IsCutOff.not_isRunKind {es : List Event} (h : IsCutOff w es) :
    ∀ e ∈ es, ¬IsRunKind e.kind := by
  obtain ⟨backends, hcut, rfl⟩ := h
  refine List.forall_mem_append.mpr ⟨?_, not_isRunKind_lastEvents⟩
  refine List.forall_mem_cons.mpr ⟨by simp [IsRunKind, Worker.event], fun e he => ?_⟩
  exact not_isRunKind_of_isBackendKind (hcut.isBackendKind e he)

/-- A worker announces nothing about the run as a whole. -/
theorem not_isRunKind_of_mem_life {e : Event} (he : e ∈ events (w.life s horizon).entries) :
    ¬IsRunKind e.kind := by
  obtain ⟨all, hall, hpart⟩ := exists_prefix w s horizon
  rcases hall with hall | hall
  · exact hall.not_isRunKind e (hpart.subset he)
  · exact hall.not_isRunKind e (hpart.subset he)

/-! ## What is done in a course -/

@[simp] theorem actsOf_append : actsOf (rs ++ qs) = actsOf rs ++ actsOf qs := List.flatMap_append

theorem mem_actsOf {x : Nat × Act} : x ∈ actsOf rs ↔ ∃ r ∈ rs, x.2 ∈ r.acts ∧ r.time = x.1 := by
  obtain ⟨time, act⟩ := x
  simp only [actsOf, List.mem_flatMap, List.mem_map, Prod.mk.injEq]
  constructor
  · rintro ⟨r, hr, a, ha, ht, rfl⟩
    exact ⟨r, hr, ha, ht⟩
  · rintro ⟨r, hr, ha, ht⟩
    exact ⟨r, hr, act, ha, ht, rfl⟩

/-- The announcement that the run is asked to stop, if it is. -/
def Course.request (c : Course) : List (Nat × Act) :=
  (c.stop.map fun stop => (stop, { deed := .publish shutdownRequested })).toList

/-- The announcement that all workers have ended, if it is made. -/
def Course.conclusion (c : Course) : List (Nat × Act) :=
  match c.stop, c.finish with
  | some _, some finish => [(finish, { deed := .publish allStopped })]
  | _, _ => []

theorem Course.acts_eq (c : Course) :
    c.acts = actsOf c.before ++ c.request ++ actsOf c.after ++ c.conclusion := by
  have hrequest : actsOf c.opening = c.request := by
    unfold Course.opening Course.request
    cases c.stop <;> rfl
  have hconclusion : actsOf c.closing = c.conclusion := by
    unfold Course.closing Course.conclusion
    cases c.stop <;> cases c.finish <;> rfl
  rw [Course.acts, Course.rounds, actsOf_append, actsOf_append, actsOf_append, hrequest,
    hconclusion]

/-- The workers of a course announce nothing about the run as a whole. -/
theorem Course.not_tells (ws : List Worker) (s : Surroundings) (horizon : Nat) {kind : EventKind}
    (hkind : IsRunKind kind) :
    ∀ x ∈ actsOf ((ofWorkers ws s horizon).before ++ (ofWorkers ws s horizon).after),
      x.2.tells kind = false := by
  intro x hx
  obtain ⟨r, hr, hact, -⟩ := mem_actsOf.mp hx
  obtain ⟨i, life, hlife, -, a, ha, -, hdeed⟩ := (ofWorkers_unfolds ws s horizon).exists_entry
    (isProper_lives ws s horizon) hr hact
  obtain ⟨w, -, rfl⟩ := List.mem_map.mp (List.mem_of_getElem? hlife)
  unfold Act.tells
  cases hevent : x.2.deed.event? with
  | none => rfl
  | some e =>
    have he : e ∈ events (w.life s horizon).entries :=
      List.mem_filterMap.mpr ⟨a, ha, by rw [hdeed, hevent]⟩
    have hno := not_isRunKind_of_mem_life he
    have hne : e.kind ≠ kind := fun heq => hno (heq ▸ hkind)
    simpa using hne

theorem Course.tells_of_mem_request : ∀ x ∈ c.request, x.2.tells .shutdownRequested = true ∧
    x.2.tells .allStopped = false ∧ c.stop = some x.1 := by
  unfold Course.request
  cases c.stop with
  | none => simp
  | some stop => simp [Act.tells, Deed.event?, shutdownRequested]

theorem Course.tells_of_mem_conclusion : ∀ x ∈ c.conclusion, x.2.tells .allStopped = true ∧
    x.2.tells .shutdownRequested = false ∧ c.stop.isSome ∧ c.finish = some x.1 := by
  unfold Course.conclusion
  cases c.stop with
  | none => simp
  | some stop =>
    cases c.finish with
    | none => simp
    | some finish => simp [Act.tells, Deed.event?, allStopped]

/-! ## The protocol is kept -/

namespace Course

theorem mem_request_of_tells {x : Nat × Act} (hx : x ∈ (ofWorkers ws s horizon).acts)
    (htells : x.2.tells .shutdownRequested = true) : x ∈ (ofWorkers ws s horizon).request := by
  have hno := not_tells ws s horizon (.inl rfl)
  rw [actsOf_append] at hno
  rw [acts_eq, List.mem_append, List.mem_append, List.mem_append] at hx
  rcases hx with ((hx | hx) | hx) | hx
  · simp [hno x (List.mem_append_left _ hx)] at htells
  · exact hx
  · simp [hno x (List.mem_append_right _ hx)] at htells
  · simp [(tells_of_mem_conclusion x hx).2.1] at htells

theorem mem_conclusion_of_tells {x : Nat × Act} (hx : x ∈ (ofWorkers ws s horizon).acts)
    (htells : x.2.tells .allStopped = true) : x ∈ (ofWorkers ws s horizon).conclusion := by
  have hno := not_tells ws s horizon (.inr rfl)
  rw [actsOf_append] at hno
  rw [acts_eq, List.mem_append, List.mem_append, List.mem_append] at hx
  rcases hx with ((hx | hx) | hx) | hx
  · simp [hno x (List.mem_append_left _ hx)] at htells
  · simp [(tells_of_mem_request x hx).2.1] at htells
  · simp [hno x (List.mem_append_right _ hx)] at htells
  · exact hx

/-- The run announces that it is asked to stop exactly if it is. -/
theorem announces_request_iff :
    (ofWorkers ws s horizon).Announces .shutdownRequested ↔
      ∃ stop, (ofWorkers ws s horizon).stop = some stop := by
  constructor
  · rintro ⟨x, hx, htells⟩
    exact ⟨x.1, (tells_of_mem_request x (mem_request_of_tells hx htells)).2.2⟩
  · rintro ⟨stop, hstop⟩
    refine ⟨(stop, { deed := .publish shutdownRequested }), ?_, rfl⟩
    rw [acts_eq]
    simp [request, hstop]

theorem announces_allStopped_iff :
    (ofWorkers ws s horizon).Announces .allStopped ↔
      (∃ stop, (ofWorkers ws s horizon).stop = some stop) ∧
        (ofWorkers ws s horizon).finish.isSome = true := by
  constructor
  · rintro ⟨x, hx, htells⟩
    obtain ⟨-, -, hstop, hfinish⟩ := tells_of_mem_conclusion x (mem_conclusion_of_tells hx htells)
    exact ⟨Option.isSome_iff_exists.mp hstop, by rw [hfinish]; rfl⟩
  · rintro ⟨⟨stop, hstop⟩, hfinish⟩
    obtain ⟨finish, hfinish⟩ := Option.isSome_iff_exists.mp hfinish
    refine ⟨(finish, { deed := .publish allStopped }), ?_, rfl⟩
    rw [acts_eq]
    simp [conclusion, hstop, hfinish]

/-- A run with a stop is told until then exactly if all lives of its workers have an end. -/
theorem le_toldUntil_lives_iff (hw : ∀ w ∈ ws, w.connectors ≠ []) {stop : Nat}
    (hstop : s.stop = some stop) :
    stop ≤ toldUntil horizon (ws.map fun w => w.life s horizon) ↔
      stop ≤ horizon ∧ ∀ w ∈ ws, (w.life s horizon).ending.told? = none := by
  rw [le_toldUntil_iff, List.forall_mem_map]
  refine and_congr_right fun _ => forall₂_congr fun w hmem => ?_
  constructor
  · intro hle
    obtain ⟨connecting, work, h⟩ := life_phases w s horizon
    cases hend : (w.life s horizon).ending with
    | reached m | stopped m | broken m => rfl
    | pending time =>
      -- a life without an end is not told until the stop
      have hbefore := h.stopped_eq_false_of_pending (hw w hmem) hend
      have hlt := s.stopped_eq_false_iff.mp hbefore stop hstop
      have hle := hle time (by rw [hend]; rfl)
      omega
  · intro htold time htime
    rw [htold] at htime
    exact absurd htime (by simp)

theorem announces_request_iff_stop (hw : ∀ w ∈ ws, w.connectors ≠ []) :
    (ofWorkers ws s horizon).Announces .shutdownRequested ↔
      ∃ stop, s.stop = some stop ∧ stop ≤ horizon ∧
        (∀ w ∈ ws, (w.life s horizon).ending.told? = none) ∧
          (stop = 0 ∨ ∃ w ∈ ws, ∃ e ∈ (w.life s horizon).entries, stop ≤ e.moment.time) := by
  rw [announces_request_iff]
  refine exists_congr fun stop => ?_
  rw [(ofWorkers_unfolds ws s horizon).stop_eq_some_iff (isProper_lives ws s horizon)]
  refine and_congr_right fun hstop => ?_
  rw [le_toldUntil_lives_iff hw hstop, and_assoc]
  refine and_congr_right fun _ => and_congr_right fun htold => or_congr_right ?_
  -- lives that have an end are not over by the stop if something is done at that time or later
  constructor
  · rintro ⟨life, hlife, hno⟩
    obtain ⟨w, hmem, rfl⟩ := List.mem_map.mp hlife
    by_contra hnone
    refine hno ⟨htold w hmem, fun e he => ?_⟩
    by_contra hlate
    exact hnone ⟨w, hmem, e, he, Nat.not_lt.mp hlate⟩
  · rintro ⟨w, hmem, e, he, hlate⟩
    refine ⟨_, List.mem_map_of_mem hmem, fun hends => ?_⟩
    have hlt := hends.2 e he
    omega

/-- Nothing is begun after all workers were asked to stop. -/
theorem begins_eq_false (hw : ∀ w ∈ ws, w.connectors ≠ []) :
    ∀ x ∈ actsOf (ofWorkers ws s horizon).after, x.2.deed.begins = false := by
  intro x hx
  have hunfolds := ofWorkers_unfolds ws s horizon
  have hproper := isProper_lives ws s horizon
  obtain ⟨r, hr, hact, htime⟩ := mem_actsOf.mp hx
  obtain ⟨i, life, hlife, -, a, ha, hatime, hdeed⟩ :=
    hunfolds.exists_entry hproper (List.mem_append_right _ hr) hact
  obtain ⟨w, hmem, rfl⟩ := List.mem_map.mp (List.mem_of_getElem? hlife)
  refine eq_false_of_ne_true fun hbegins => ?_
  obtain ⟨connecting, work, h⟩ := life_phases w s horizon
  have hbefore := h.stopped_eq_false (hw w hmem) ha (by rw [hdeed, hbegins])
  have hafter := (hunfolds.time_of_mem_after hproper r hr).2
  rw [hatime, hafter] at hbefore
  exact absurd hbefore (by simp)

/-- When all workers have ended, each of them has closed what it has obtained. -/
theorem ended_of_finish (hfinish : (ofWorkers ws s horizon).finish.isSome = true)
    (hi : ws[i]? = some w) :
    (w.life s horizon).ending.told? = none ∧
      deedsOf i (ofWorkers ws s horizon).rounds = story (w.life s horizon).entries ∧
      (deedsOf i (ofWorkers ws s horizon).rounds).filterMap (fun x => x.2.closed?) =
        (deedsOf i (ofWorkers ws s horizon).rounds).filterMap fun x => x.2.obtained? := by
  have hlife : (ws.map fun w => w.life s horizon)[i]? = some (w.life s horizon) := by
    rw [List.getElem?_map, hi]
    rfl
  obtain ⟨htold, hdeeds⟩ := (ofWorkers_unfolds ws s horizon).deedsOf_rounds_eq
    (isProper_lives ws s horizon) hlife hfinish
  refine ⟨htold, hdeeds, ?_⟩
  obtain ⟨connecting, work, h⟩ := life_phases w s horizon
  have hclosed := h.closed_eq
  rw [if_pos htold] at hclosed
  rw [hdeeds, story, List.filterMap_map, List.filterMap_map]
  exact hclosed

/-- All workers have ended exactly if their lives have an end before the horizon. -/
theorem finish_isSome_iff_horizon :
    (ofWorkers ws s horizon).finish.isSome = true ↔
      ∀ w ∈ ws, (w.life s horizon).EndsWhile fun time => time ≤ horizon := by
  rw [(ofWorkers_unfolds ws s horizon).finish_isSome_iff (isProper_lives ws s horizon),
    List.forall_mem_map]
  constructor
  · intro hall w hmem
    exact (hall w hmem).imp fun time hle => (le_toldUntil_iff.mp hle).1
  · intro hall w hmem
    refine (hall w hmem).imp fun time hle => le_toldUntil_iff.mpr ⟨hle, ?_⟩
    intro life hlife time' htime'
    obtain ⟨w', hmem', rfl⟩ := List.mem_map.mp hlife
    rw [(hall w' hmem').1] at htime'
    exact absurd htime' (by simp)

/-- A run whose workers end before it is asked to stop is not asked. -/
theorem stop_eq_none (hstop : s.stop ≠ some 0)
    (hall : ∀ w ∈ ws, (w.life s horizon).EndsWhile fun time =>
      time ≤ horizon ∧ s.stopped time = false) : (ofWorkers ws s horizon).stop = none := by
  have hunfolds := ofWorkers_unfolds ws s horizon
  have hproper := isProper_lives ws s horizon
  refine Option.eq_none_iff_forall_not_mem.mpr fun stop hmem => ?_
  obtain ⟨hs, -, rfl | ⟨life, hlife, hno⟩⟩ := (hunfolds.stop_eq_some_iff hproper).mp hmem
  · exact hstop hs
  · obtain ⟨w, hmem, rfl⟩ := List.mem_map.mp hlife
    exact hno ((hall w hmem).imp fun time h => s.stopped_eq_false_iff.mp h.2 stop hs)

/-- If nothing is done until all workers have ended, there is none. -/
theorem eq_nil_of_rounds (hfinish : (ofWorkers ws s horizon).finish.isSome = true)
    (hrounds : (ofWorkers ws s horizon).rounds = []) : ws = [] := by
  refine List.eq_nil_iff_forall_not_mem.mpr fun w hmem => ?_
  obtain ⟨i, hi⟩ := List.mem_iff_getElem?.mp hmem
  obtain ⟨-, hstory, -⟩ := ended_of_finish hfinish hi
  obtain ⟨connecting, work, h⟩ := life_phases w s horizon
  rw [hrounds, h.entries] at hstory
  exact absurd hstory (by simp [story])

/-- A run whose workers end before it is asked to stop ends with the last of them. -/
theorem finish_of_endsWhile (hstop : s.stop ≠ some 0)
    (hall : ∀ w ∈ ws, (w.life s horizon).EndsWhile fun time =>
      time ≤ horizon ∧ s.stopped time = false) :
    ∃ finish, (ofWorkers ws s horizon).finish = some finish ∧
      (∀ x ∈ (ofWorkers ws s horizon).acts, x.1 ≤ finish) ∧
        (ws = [] ∧ finish = 0 ∨ ∃ x ∈ (ofWorkers ws s horizon).acts, x.1 = finish) := by
  have hunfolds := ofWorkers_unfolds ws s horizon
  have hproper := isProper_lives ws s horizon
  have hsome : (ofWorkers ws s horizon).finish.isSome = true :=
    finish_isSome_iff_horizon.mpr fun w hmem => (hall w hmem).imp fun _ h => h.1
  have hrounds := hunfolds.rounds_eq_before (stop_eq_none hstop hall)
  obtain ⟨finish, hfinish⟩ := Option.isSome_iff_exists.mp hsome
  have hlast := hunfolds.finish_eq_of_none (stop_eq_none hstop hall) hfinish
  refine ⟨finish, hfinish, fun x hx => ?_, ?_⟩
  · obtain ⟨r, hr, -, htime⟩ := mem_actsOf.mp hx
    rw [← htime]
    exact hunfolds.time_le_finish hproper hfinish r hr
  · rcases lastTime_cases 0 (ofWorkers ws s horizon).before with ⟨hnil, htime⟩ | ⟨r, hr, htime⟩
    · exact .inl ⟨eq_nil_of_rounds hsome (hrounds.trans hnil), hlast.trans htime⟩
    · right
      obtain ⟨act, hact⟩ := hunfolds.exists_act hproper r (List.mem_append_left _ hr)
      refine ⟨(r.time, act), ?_, htime.trans hlast.symm⟩
      exact mem_actsOf.mpr ⟨r, by rwa [hrounds], hact, rfl⟩

end Course

section
variable (h : Unfolds lives s told c) (hproper : (ofLives lives).IsProper)
  (hlives : ∀ life ∈ lives, ∃ w connecting work, w.connectors ≠ [] ∧
    Phases w s life connecting work)
include h hproper hlives

/-- If a run goes on after it was asked to stop, the last that is done is that a monitor is given
    up. -/
theorem Unfolds.finish_mem_dismissals {stop finish : Nat} (hstop : c.stop = some stop)
    (hfinish : c.finish = some finish) (hlt : stop < finish) : finish ∈ c.dismissals := by
  have hs : s.stop = some stop := ((h.stop_eq_some_iff hproper).mp hstop).1
  have hover := (h.finish_isSome_iff hproper).mp (by rw [hfinish]; rfl)
  have hlast := h.finish_eq_of_some hstop hfinish
  obtain ⟨-, hle⟩ := h.le_finish hproper hstop hfinish
  obtain ⟨-, heq⟩ | ⟨r, hr, heq⟩ := Course.lastTime_cases stop c.after
  · omega
  -- the worker of the last round has a monitor that works until then
  obtain ⟨act, hact⟩ := h.exists_act hproper r (List.mem_append_right _ hr)
  obtain ⟨i, life, hlife, -, a, ha, htime, -⟩ :=
    h.exists_entry hproper (List.mem_append_right _ hr) hact
  have hmem := List.mem_of_getElem? hlife
  obtain ⟨w, connecting, work, hw, hphases⟩ := hlives life hmem
  obtain ⟨htold, htimes⟩ := hover life hmem
  rcases hphases.le_stop_or_dismissed hw htold hs with hearly | ⟨d, hd, hdeed, hlate⟩
  · have := hearly a ha
    omega
  · have hlate := hlate a ha
    have hstopped : s.stopped d.moment.time = true := s.stopped_iff.mpr ⟨stop, hs, by omega⟩
    have hdeeds : (d.moment.time, Deed.dismiss) ∈ deedsOf i c.after := by
      rw [h.deedsOf_after hproper hlife, List.mem_filter]
      refine ⟨List.mem_map.mpr ⟨d, hd, by rw [hdeed]⟩, ?_⟩
      simp [htimes d hd, hstopped]
    obtain ⟨r', hr', -, htime'⟩ := mem_deedsOf.mp hdeeds
    have hsame : d.moment.time = finish := by
      have := (hle r' hr').2
      dsimp only at htime'
      omega
    exact ⟨i, hsame ▸ hdeeds⟩

/-- A run that was asked to stop ends when the last monitor is given up, or at once. -/
theorem Unfolds.isGreatest_finish {stop finish : Nat} (hstop : c.stop = some stop)
    (hfinish : c.finish = some finish) : IsGreatest (insert stop c.dismissals) finish := by
  obtain ⟨hstopfinish, hle⟩ := h.le_finish hproper hstop hfinish
  constructor
  · rcases Nat.eq_or_lt_of_le hstopfinish with heq | hlt
    · exact .inl heq.symm
    · exact .inr (h.finish_mem_dismissals hproper hlives hstop hfinish hlt)
  · intro time htime
    rcases htime with rfl | ⟨i, hdeeds⟩
    · exact hstopfinish
    · obtain ⟨r, hr, -, heq⟩ := mem_deedsOf.mp hdeeds
      have hr := (hle r hr).2
      dsimp only at heq
      omega

end

/-- A list is split in one way only before an element that has a property, if no other element has
    it. -/
theorem eq_of_split {α : Type} {P : α → Bool} {pre post front back : List α} {x z : α}
    (h : front ++ z :: back = pre ++ x :: post) (hx : P x = true)
    (hfront : ∀ y ∈ front, P y = false) (hback : ∀ y ∈ back, P y = false) :
    front = pre ∧ back = post := by
  have hno : ∀ {ys : List α}, (∀ y ∈ ys, P y = false) → x ∉ ys :=
    fun hys hmem => by simp [hys x hmem] at hx
  obtain ⟨hpre, -, hpost⟩ := (List.append_cons_inj_of_notMem (hno hfront) (hno hback)).mp h
  exact ⟨hpre, hpost⟩

namespace Course

theorem countP_request_le_one :
    (ofWorkers ws s horizon).acts.countP (fun x => x.2.tells .shutdownRequested) ≤ 1 := by
  have hno := not_tells ws s horizon (.inl rfl)
  rw [actsOf_append, List.forall_mem_append] at hno
  have hzero : ∀ {xs : List (Nat × Act)}, (∀ x ∈ xs, x.2.tells .shutdownRequested = false) →
      xs.countP (fun x => x.2.tells .shutdownRequested) = 0 :=
    fun hxs => List.countP_eq_zero.mpr fun x hx => by simp [hxs x hx]
  have hconclusion := hzero fun x hx =>
    (tells_of_mem_conclusion (c := ofWorkers ws s horizon) x hx).2.1
  have hlength : (ofWorkers ws s horizon).request.length ≤ 1 := by
    unfold request
    cases (ofWorkers ws s horizon).stop <;> simp
  have hcount := List.countP_le_length (l := (ofWorkers ws s horizon).request)
    (p := fun x => x.2.tells .shutdownRequested)
  rw [acts_eq, List.countP_append, List.countP_append, List.countP_append, hzero hno.1, hzero hno.2,
    hconclusion]
  omega

/-- What comes behind the announcement that the run is asked to stop. -/
theorem post_request_eq {pre post : List (Nat × Act)} {x : Nat × Act}
    (h : (ofWorkers ws s horizon).acts = pre ++ x :: post) (hx : x.2.tells .shutdownRequested) :
    post = actsOf (ofWorkers ws s horizon).after ++ (ofWorkers ws s horizon).conclusion := by
  have hno := not_tells ws s horizon (.inl rfl)
  rw [actsOf_append, List.forall_mem_append] at hno
  have hmem : x ∈ (ofWorkers ws s horizon).acts := by simp [h]
  have hstop := (tells_of_mem_request x (mem_request_of_tells hmem hx)).2.2
  have hsplit : actsOf (ofWorkers ws s horizon).before ++
      (x.1, { deed := .publish shutdownRequested }) ::
        (actsOf (ofWorkers ws s horizon).after ++ (ofWorkers ws s horizon).conclusion) =
      pre ++ x :: post := by
    rw [← h, acts_eq]
    simp [request, hstop]
  refine (eq_of_split (P := fun y => y.2.tells .shutdownRequested) hsplit hx hno.1 ?_).2.symm
  exact List.forall_mem_append.mpr ⟨hno.2, fun y hy => (tells_of_mem_conclusion y hy).2.1⟩

/-- The announcement that all workers have ended is the last thing that is done. -/
theorem split_allStopped {pre post : List (Nat × Act)} {x : Nat × Act}
    (h : (ofWorkers ws s horizon).acts = pre ++ x :: post) (hx : x.2.tells .allStopped) :
    post = [] ∧ (∃ y ∈ pre, y.2.tells .shutdownRequested) ∧
      ∀ y ∈ pre, y.2.tells .allStopped = false := by
  have hno := not_tells ws s horizon (.inr rfl)
  rw [actsOf_append, List.forall_mem_append] at hno
  have hmem : x ∈ (ofWorkers ws s horizon).acts := by simp [h]
  obtain ⟨-, -, hsome, hfinish⟩ := tells_of_mem_conclusion x (mem_conclusion_of_tells hmem hx)
  obtain ⟨stop, hstop⟩ := Option.isSome_iff_exists.mp hsome
  have hsplit : (actsOf (ofWorkers ws s horizon).before ++ (ofWorkers ws s horizon).request ++
      actsOf (ofWorkers ws s horizon).after) ++ (x.1, { deed := .publish allStopped }) :: [] =
      pre ++ x :: post := by
    rw [← h, acts_eq]
    simp [conclusion, hstop, hfinish]
  have hbefore : ∀ y ∈ actsOf (ofWorkers ws s horizon).before ++ (ofWorkers ws s horizon).request ++
      actsOf (ofWorkers ws s horizon).after, y.2.tells .allStopped = false :=
    List.forall_mem_append.mpr ⟨List.forall_mem_append.mpr
      ⟨hno.1, fun y hy => (tells_of_mem_request y hy).2.1⟩, hno.2⟩
  obtain ⟨hpre, hpost⟩ :=
    eq_of_split (P := fun y => y.2.tells .allStopped) hsplit hx hbefore (by simp)
  rw [hpre] at hbefore
  refine ⟨hpost.symm, ⟨(stop, { deed := .publish shutdownRequested }), ?_, rfl⟩, hbefore⟩
  rw [← hpre]
  simp [request, hstop]

/-- Each course keeps the protocol, if each of its workers has a backend at least. -/
theorem keepsProtocol (hw : ∀ w ∈ ws, w.connectors ≠ []) :
    KeepsProtocol ws s horizon (ofWorkers ws s horizon) where
  request_once := countP_request_le_one
  request_time x hx htells := by
    have hstop := (tells_of_mem_request x (mem_request_of_tells hx htells)).2.2
    exact (((ofWorkers_unfolds ws s horizon).stop_eq_some_iff
      (isProper_lives ws s horizon)).mp hstop).1
  request_iff := announces_request_iff_stop hw
  begins_nothing pre x post h hx y hy := by
    rw [post_request_eq h hx, List.mem_append] at hy
    rcases hy with hy | hy
    · exact begins_eq_false hw y hy
    · -- an announcement begins nothing
      have htells := (tells_of_mem_conclusion y hy).1
      cases hdeed : y.2.deed with
      | publish e => rfl
      | _ => simp [Act.tells, hdeed, Deed.event?] at htells
  all_stopped_last _ _ _ h hx := split_allStopped h hx
  all_stopped_iff := by
    rw [announces_allStopped_iff, announces_request_iff, finish_isSome_iff_horizon]
  all_stopped_ended h i w hi := ended_of_finish (announces_allStopped_iff.mp h).2 hi
  all_stopped_time x hx htells := by
    obtain ⟨-, -, hsome, hfinish⟩ := tells_of_mem_conclusion x (mem_conclusion_of_tells hx htells)
    obtain ⟨stop, hstop⟩ := Option.isSome_iff_exists.mp hsome
    have hunfolds := ofWorkers_unfolds ws s horizon
    have hproper := isProper_lives ws s horizon
    refine ⟨stop, ((hunfolds.stop_eq_some_iff hproper).mp hstop).1, ?_⟩
    refine hunfolds.isGreatest_finish hproper (fun life hlife => ?_) hstop hfinish
    obtain ⟨w, hmem, rfl⟩ := List.mem_map.mp hlife
    obtain ⟨connecting, work, hphases⟩ := life_phases w s horizon
    exact ⟨w, connecting, work, hw w hmem, hphases⟩
  quiet hstop hall := by
    have hnone := stop_eq_none hstop hall
    refine ⟨fun h => ?_, fun h => ?_, finish_of_endsWhile hstop hall⟩
    · obtain ⟨stop, hsome⟩ := announces_request_iff.mp h
      rw [hnone] at hsome
      exact absurd hsome (by simp)
    · obtain ⟨⟨stop, hsome⟩, -⟩ := announces_allStopped_iff.mp h
      rw [hnone] at hsome
      exact absurd hsome (by simp)

end Course

/-! ## Runs -/

/-- A course that announces that it was asked to stop announces that all have ended, if it is told
    for long enough. -/
theorem Course.exists_horizon (hw : ∀ w ∈ ws, w.connectors ≠ []) :
    ∃ enough, ∀ horizon, enough ≤ horizon →
      ((ofWorkers ws s horizon).Announces .allStopped ↔
        (ofWorkers ws s horizon).Announces .shutdownRequested) := by
  by_cases hever : ∃ first, (ofWorkers ws s first).Announces .shutdownRequested
  · obtain ⟨first, hfirst⟩ := hever
    obtain ⟨stop, hstop, hle, htold, hlate⟩ := (announces_request_iff_stop hw).mp hfirst
    obtain ⟨bound, hbound⟩ := (List.finite_toSet
      ((ws.flatMap fun w => (w.life s first).entries).map fun e => e.moment.time)).bddAbove
    refine ⟨max first bound, fun horizon henough => ?_⟩
    -- the lives do not change any more
    have hsame : ∀ w ∈ ws, w.life s horizon = w.life s first :=
      fun w hmem => life_eq_of_told (by omega) (htold w hmem)
    have hrequest : (ofWorkers ws s horizon).Announces .shutdownRequested := by
      refine (announces_request_iff_stop hw).mpr ⟨stop, hstop, by omega, fun w hmem => ?_, ?_⟩
      · rw [hsame w hmem]
        exact htold w hmem
      · rcases hlate with hzero | ⟨w, hmem, e, he, hlate⟩
        · exact .inl hzero
        · refine .inr ⟨w, hmem, e, ?_, hlate⟩
          rwa [hsame w hmem]
    refine iff_of_true ?_ hrequest
    refine (keepsProtocol hw).all_stopped_iff.mpr ⟨hrequest, fun w hmem => ?_⟩
    rw [hsame w hmem]
    refine ⟨htold w hmem, fun e he => ?_⟩
    have hall : e ∈ ws.flatMap fun w => (w.life s first).entries :=
      List.mem_flatMap.mpr ⟨w, hmem, he⟩
    have hle' : e.moment.time ≤ bound := hbound (List.mem_map.mpr ⟨e, hall, rfl⟩)
    omega
  · refine ⟨0, fun horizon _ => iff_of_false (fun h => ?_) fun h => hever ⟨horizon, h⟩⟩
    exact hever ⟨horizon, ((keepsProtocol hw).all_stopped_iff.mp h).1⟩

/-- **Shutdown protocol of a run.** Each run keeps the protocol, as far as it is told. It announces
    that all workers have ended exactly if it announces that it was asked to stop, if it is told for
    long enough. With a pause between attempts, it is told for long enough to be asked to stop as
    soon as its horizon is not before the stop. -/
theorem Supervisor.run_shutdown (s : Supervisor) (jobs : List Job) (world : World)
    (script : Script) :
    let ws := s.workers jobs
    let surroundings := runSurroundings world script
    let course := fun horizon => (s.run jobs world script horizon).1.course
    (∀ horizon, KeepsProtocol ws surroundings horizon (course horizon)) ∧
      (∃ enough, ∀ horizon, enough ≤ horizon →
        ((course horizon).Announces .allStopped ↔ (course horizon).Announces .shutdownRequested)) ∧
      (0 < s.settings.retryDelay → ∀ stop, script.completion = some stop →
        ∀ horizon, stop ≤ horizon →
          ∀ w ∈ ws, (w.life surroundings horizon).ending.told? = none) := by
  intro ws surroundings course
  have hw : ∀ w ∈ ws, w.connectors ≠ [] := s.connectors_ne_nil
  refine ⟨fun horizon => Course.keepsProtocol hw, Course.exists_horizon hw, ?_⟩
  intro hpause stop hstop horizon hle w hmem
  have hdelay : w.retryDelay = s.settings.retryDelay := by
    obtain ⟨j, -, rfl⟩ := List.mem_map.mp hmem
    rfl
  exact life_told_of_pause (hdelay ▸ hpause) (hw w hmem) hstop hle

end Steward.Supervision
