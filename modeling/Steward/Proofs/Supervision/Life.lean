import Mathlib.Tactic.Common
import Steward.Proofs.Supervision.Connecting

/-!
# The phases of a life

A worker announces itself, connects its backends, works on the resource if all of them are
connected, and takes its leave. `life_phases` cuts every life into these phases; connecting follows
the rules of `ConnectsAll`, and working those of `Works`.

Results:
* `life_phases`: the phases of a life.
* `life_isOrderly`: time does not go backwards in a life.
* `Phases.stopped_eq_false`: a worker does not begin an attempt, nor have the resource built, at or
  after the time at which it is asked to stop.
-/

namespace Steward.Supervision

open Backend (Client ClientSet)
open Template (BuildError Monitor)

/-! ## Readings of a monitor -/

/-- Entries in which a monitor does nothing but read. -/
def AreReadings (es : List Entry) : Prop := ∀ e ∈ es, ∃ answers, e.deed = .read answers

theorem readings_areReadings (s : Surroundings) (clients : List Client) (pause : Nat) :
    ∀ again m, AreReadings (Worker.readings s clients pause again m).1 := by
  intro again
  induction again with
  | zero => intro m; simp [Worker.readings, AreReadings]
  | succ again ih =>
    intro m e he
    rw [Worker.readings] at he
    rcases List.mem_cons.mp he with rfl | he
    · exact ⟨_, rfl⟩
    · exact ih _ e he

theorem isOrderly_readings (s : Surroundings) (clients : List Client) (pause : Nat) :
    ∀ again m, IsOrderly m.time (Worker.readings s clients pause again m).1
      (some (Worker.readings s clients pause again m).2) := by
  -- waiting for a file takes no time
  have hfile : ∀ m : Moment,
      (if clients.any Client.readsFile then m.afterFile else m).time = m.time := by
    intro m
    split <;> rfl
  intro again
  induction again with
  | zero =>
    intro m
    rw [Worker.readings]
    refine isOrderly_of_forall_eq (Nat.le_of_eq (hfile m).symm) ?_
    simp
  | succ again ih =>
    intro m
    rw [Worker.readings]
    refine .cons (Nat.le_of_eq (hfile m).symm) ((ih _).mono ?_)
    rw [Moment.time_later]
    exact Nat.le_add_right _ _

theorem monitorReadings_areReadings (s : Surroundings) (clients : List Client) (monitor : Monitor)
    (m : Moment) (endTime : Nat) :
    AreReadings (Worker.monitorReadings s clients monitor m endTime).1 := by
  unfold Worker.monitorReadings
  split
  · simp [AreReadings]
  · exact readings_areReadings s clients _ _ m

theorem isOrderly_monitorReadings (s : Surroundings) (clients : List Client) (monitor : Monitor)
    (m : Moment) (endTime : Nat) :
    IsOrderly m.time (Worker.monitorReadings s clients monitor m endTime).1
      (some (Worker.monitorReadings s clients monitor m endTime).2) := by
  unfold Worker.monitorReadings
  split
  · exact isOrderly_nil fun m' hm' => by cases hm'; exact Nat.le_refl _
  · exact isOrderly_readings ..

/-! ## Working on the resource -/

/-- The event that building failed. -/
def buildFailed (w : Worker) (e : BuildError) : Event :=
  { w.event .resourceBuildFailed with reason := some e.message }

/-- The entries of a monitor that begins at `m`, up to its end. -/
def watchEntries (w : Worker) (s : Surroundings) (clients : List Client) (m : Moment)
    (readings : List Entry) : List Entry :=
  ⟨m, .build clients w.templates⟩ :: ⟨m, .publish (w.event .resourceWatching)⟩ ::
    ⟨m, .watch (s.stopped m.time)⟩ :: readings

/-- How work on the resource goes with some clients, depending on how connecting them has ended. -/
inductive Works (w : Worker) (s : Surroundings) (clients : List Client) : Ending → Passage → Prop
  /-- There is no work if not all backends are connected. -/
  | idle {e : Ending} (h : ∀ m, e ≠ .reached m) : Works w s clients e { ending := e }
  /-- The resource cannot be built. -/
  | refused {e : BuildError} (m : Moment) :
      Works w s clients (.reached m)
        { entries := [⟨m, .build clients w.templates⟩, ⟨m, .publish (buildFailed w e)⟩]
          ending := .reached m }
  /-- The builder breaks down. -/
  | broken (m : Moment) :
      Works w s clients (.reached m)
        { entries := [⟨m, .build clients w.templates⟩], ending := .broken m }
  /-- The monitor works for longer than it is told, and is never asked to stop. -/
  | endless {m last : Moment} {readings : List Entry} (horizon : Nat) (hstop : s.stop = none)
      (hread : AreReadings readings) (hord : IsOrderly m.time readings (some last)) :
      Works w s clients (.reached m)
        { entries := watchEntries w s clients m readings, ending := .pending horizon }
  /-- The monitor comes to its end. -/
  | watched {m done : Moment} {readings : List Entry} (hread : AreReadings readings)
      (hord : IsOrderly m.time readings (some done)) :
      Works w s clients (.reached m)
        { entries := watchEntries w s clients m readings ++ [⟨done, .watched⟩, ⟨done, .dismiss⟩]
          ending := .reached done }
  /-- The monitor breaks down. -/
  | collapsed {m done : Moment} {readings : List Entry} (hread : AreReadings readings)
      (hord : IsOrderly m.time readings (some done)) :
      Works w s clients (.reached m)
        { entries := watchEntries w s clients m readings ++ [⟨done, .dismiss⟩]
          ending := .broken done }

theorem Monitor.stop_eq_none_of_endTime {monitor : Monitor} {start : Nat} {stop : Option Nat}
    (h : monitor.endTime start stop = none) : stop = none := by
  cases hl : monitor.lifetime <;> cases stop <;> simp_all [Monitor.endTime, Monitor.earlier]

/-- Having the resource built and watching it follows the rules. -/
theorem buildAndWatch_works (w : Worker) (s : Surroundings) (horizon : Nat) (clients : List Client)
    (m : Moment) : Works w s clients (.reached m) (w.buildAndWatch s horizon clients m) := by
  unfold Worker.buildAndWatch
  split
  · exact .refused m
  · exact .broken m
  · next monitor _ =>
    unfold Worker.watch
    dsimp only
    split
    · next hend =>
      exact .endless horizon (Monitor.stop_eq_none_of_endTime hend)
        (monitorReadings_areReadings s clients monitor m _) (isOrderly_monitorReadings ..)
    · next time _ =>
      -- the last reading is followed by a wait for the end
      have hread := monitorReadings_areReadings s clients monitor m time
      have hord := (isOrderly_monitorReadings s clients monitor m time).wait
        (time - (Worker.monitorReadings s clients monitor m time).2.time)
      split
      · exact .collapsed hread hord
      · exact .watched hread hord

variable {w : Worker} {s : Surroundings} {clients : List Client} {m : Moment} {e : Ending}
  {work : Passage}

/-- There is no work if not all backends are connected. -/
theorem Works.eq_idle (h : Works w s clients e work) (he : ∀ m, e ≠ .reached m) :
    work = { ending := e } := by
  cases h with
  | idle => rfl
  | refused m | broken m => exact absurd rfl (he m)
  | endless | watched | collapsed => exact absurd rfl (he _)

/-- The stop does not cut work off. -/
theorem Works.ending_ne_stopped (h : Works w s clients (.reached m) work) (m' : Moment) :
    work.ending ≠ .stopped m' := by
  cases h with
  | idle h => exact absurd rfl (h m)
  | refused | broken | endless | watched | collapsed => simp

/-- Time does not go backwards while a worker works. -/
theorem Works.isOrderly {start : Nat} (h : Works w s clients e work)
    (hstart : ∀ m ∈ e.moment?, start ≤ m.time) :
    IsOrderly start work.entries work.ending.moment? := by
  cases h with
  | idle => exact isOrderly_nil hstart
  | refused m | broken m => exact isOrderly_of_forall_eq (hstart m rfl) (by simp)
  | @endless m last readings horizon hstop hread hord =>
    have hm := hstart m rfl
    refine .cons hm (.cons (Nat.le_refl _) (.cons (Nat.le_refl _) ?_))
    refine ⟨hord.sorted, hord.start_le, ?_, ?_⟩
      <;> simp [Ending.moment?]
  | watched hread hord =>
    have hm := hstart _ rfl
    refine .cons hm (.cons (Nat.le_refl _) (.cons (Nat.le_refl _) (hord.append ?_)))
    exact isOrderly_of_forall_eq (Nat.le_refl _) (by simp)
  | collapsed hread hord =>
    have hm := hstart _ rfl
    refine .cons hm (.cons (Nat.le_refl _) (.cons (Nat.le_refl _) (hord.append ?_)))
    exact isOrderly_of_forall_eq (Nat.le_refl _) (by simp)

theorem isWorking_watchEntries {readings : List Entry} (hread : AreReadings readings) :
    ∀ a ∈ watchEntries w s clients m readings, a.deed.isWorking := by
  intro a ha
  simp only [watchEntries, List.mem_cons] at ha
  rcases ha with rfl | rfl | rfl | ha
  · rfl
  · rfl
  · rfl
  · obtain ⟨answers, hd⟩ := hread a ha
    rw [hd]
    rfl

theorem Works.isWorking (h : Works w s clients e work) : ∀ a ∈ work.entries, a.deed.isWorking := by
  cases h with
  | idle => simp
  | refused | broken => simp [Deed.isWorking]
  | endless horizon hstop hread hord => exact isWorking_watchEntries hread
  | watched hread hord | collapsed hread hord =>
    exact List.forall_mem_append.mpr ⟨isWorking_watchEntries hread, by simp [Deed.isWorking]⟩

theorem moment_of_mem_watchEntries {readings : List Entry} (hread : AreReadings readings) :
    ∀ a ∈ watchEntries w s clients m readings, a.deed.begins → a.moment = m := by
  intro a ha hd
  simp only [watchEntries, List.mem_cons] at ha
  rcases ha with rfl | rfl | rfl | ha
  · rfl
  · rfl
  · rfl
  · obtain ⟨answers, hread⟩ := hread a ha
    rw [hread] at hd
    exact absurd hd (by simp [Deed.begins])

/-- What work begins it begins when connecting has ended. -/
theorem Works.moment_of_begins (h : Works w s clients e work) :
    ∀ a ∈ work.entries, a.deed.begins → e = .reached a.moment := by
  cases h with
  | idle => simp
  | refused m | broken m => simp [Deed.begins]
  | @endless m last readings horizon hstop hread hord =>
    exact fun a ha hd => congrArg _ (moment_of_mem_watchEntries hread a ha hd).symm
  | @watched m done readings hread hord | @collapsed m done readings hread hord =>
    refine List.forall_mem_append.mpr ⟨fun a ha hd => ?_, by simp [Deed.begins]⟩
    exact congrArg _ (moment_of_mem_watchEntries hread a ha hd).symm

/-! ## Taking leave -/

/-- What a worker does last, holding some clients. -/
def leave (w : Worker) (clients : List Client) : Ending → List Entry
  | .reached m => w.farewell ⟨clients⟩ m
  | .stopped m => w.farewell ⟨clients⟩ m
  | .broken m => Worker.collapse ⟨clients⟩ m
  | .pending _ => []

theorem conclude_eq (w : Worker) (p : Passage) :
    w.conclude p = { p with entries := p.entries ++ leave w p.clients p.ending } := by
  obtain ⟨entries, clients, ending⟩ := p
  cases ending <;> simp [Worker.conclude, leave]

/-- The farewell of a worker: the set that is left has nothing to close. -/
theorem farewell_eq (w : Worker) (clients : List Client) (m : Moment) :
    w.farewell ⟨clients⟩ m = Worker.closings clients m ++
      [⟨m, .publish (w.event .resourceStopped)⟩,
        ⟨m, .publish ((w.event .backendsReleased).withReleased clients.length)⟩] := by
  simp [Worker.farewell, ClientSet.release, ClientSet.abandon, ClientSet.empty, Worker.closings]

theorem isLeaving_of_mem_leave {a : Entry} (h : a ∈ leave w clients e) : a.deed.isLeaving := by
  cases e with
  | reached m | stopped m =>
    rw [leave, farewell_eq] at h
    simp only [Worker.closings, List.mem_append, List.mem_map, List.mem_cons, List.not_mem_nil,
      or_false] at h
    rcases h with ⟨c, -, rfl⟩ | rfl | rfl <;> rfl
  | broken m =>
    simp only [leave, Worker.collapse, Worker.closings, List.mem_append, List.mem_map,
      List.mem_singleton] at h
    rcases h with ⟨c, -, rfl⟩ | rfl <;> rfl
  | pending => simp [leave] at h

/-- All of the leave is taken at the moment at which the life ends. -/
theorem moment_of_mem_leave {a : Entry} (h : a ∈ leave w clients e) :
    e.moment? = some a.moment := by
  cases e with
  | reached m | stopped m =>
    rw [leave, farewell_eq] at h
    simp only [Worker.closings, List.mem_append, List.mem_map, List.mem_cons, List.not_mem_nil,
      or_false] at h
    rcases h with ⟨c, -, rfl⟩ | rfl | rfl <;> rfl
  | broken m =>
    simp only [leave, Worker.collapse, Worker.closings, List.mem_append, List.mem_map,
      List.mem_singleton] at h
    rcases h with ⟨c, -, rfl⟩ | rfl <;> rfl
  | pending => simp [leave] at h

/-! ## The whole life -/

/-- The announcement of a worker that begins. -/
def announced (w : Worker) : Entry := ⟨{}, .publish (w.event .resourceStarting)⟩

/-- The phases of a life: a worker announces itself, connects, works and takes its leave. -/
structure Phases (w : Worker) (s : Surroundings) (life connecting work : Passage) : Prop where
  connects : ConnectsAll w s w.connectors.zipIdx {} connecting
  works : Works w s connecting.clients connecting.ending work
  entries : life.entries = announced w ::
    (connecting.entries ++ work.entries ++ leave w connecting.clients work.ending)
  ending : life.ending = work.ending

theorem triesWithin_pos (w : Worker) (horizon : Nat) : 0 < w.triesWithin horizon := by
  exact Nat.succ_pos _

/-- A worker whose backends are all connected has the resource built and watches it. -/
theorem phases_of_reached (w : Worker) (s : Surroundings) (horizon : Nat) {connecting : Passage}
    {m : Moment}
    (hc : w.connectAll s (w.triesWithin horizon) w.connectors.zipIdx {} = connecting)
    (hend : connecting.ending = .reached m) :
    Phases w s (w.life s horizon) connecting
      (w.buildAndWatch s horizon connecting.clients m) := by
  have hconnects :=
    connectAll_connectsAll w s (triesWithin_pos w horizon) w.connectors.zipIdx {}
  rw [hc] at hconnects
  refine ⟨hconnects, ?_, ?_, ?_⟩
  · rw [hend]
    exact buildAndWatch_works ..
  · simp [Worker.life, hc, Worker.afterConnecting, hend, conclude_eq, announced]
  · simp [Worker.life, hc, Worker.afterConnecting, hend, conclude_eq]

/-- A worker whose backends are not all connected does no work. -/
theorem phases_of_not_reached (w : Worker) (s : Surroundings) (horizon : Nat)
    {connecting : Passage}
    (hc : w.connectAll s (w.triesWithin horizon) w.connectors.zipIdx {} = connecting)
    (hend : ∀ m, connecting.ending ≠ .reached m) :
    Phases w s (w.life s horizon) connecting { ending := connecting.ending } := by
  have hconnects :=
    connectAll_connectsAll w s (triesWithin_pos w horizon) w.connectors.zipIdx {}
  rw [hc] at hconnects
  have hafter : w.afterConnecting s horizon connecting = connecting := by
    unfold Worker.afterConnecting
    split
    · next m hm => exact absurd hm (hend m)
    · rfl
  refine ⟨hconnects, .idle hend, ?_, ?_⟩
  · simp [Worker.life, hc, hafter, conclude_eq, announced]
  · simp [Worker.life, hc, hafter, conclude_eq]

/-- Each life has these phases, and the first of them is connecting. -/
theorem exists_work (w : Worker) (s : Surroundings) (horizon : Nat) :
    ∃ work, Phases w s (w.life s horizon)
      (w.connectAll s (w.triesWithin horizon) w.connectors.zipIdx {}) work := by
  by_cases hend : ∃ m,
      (w.connectAll s (w.triesWithin horizon) w.connectors.zipIdx {}).ending = .reached m
  · obtain ⟨m, hm⟩ := hend
    exact ⟨_, phases_of_reached w s horizon rfl hm⟩
  · exact ⟨_, phases_of_not_reached w s horizon rfl fun m hm => hend ⟨m, hm⟩⟩

/-- Each life has these phases. -/
theorem life_phases (w : Worker) (s : Surroundings) (horizon : Nat) :
    ∃ connecting work, Phases w s (w.life s horizon) connecting work :=
  ⟨_, exists_work w s horizon⟩

/-- Whom a worker is a client of is settled while it connects its backends. -/
theorem clients_life (w : Worker) (s : Surroundings) (horizon : Nat) :
    (w.life s horizon).clients =
      (w.connectAll s (w.triesWithin horizon) w.connectors.zipIdx {}).clients := by
  unfold Worker.life Worker.afterConnecting
  simp only [conclude_eq]
  split <;> rfl

variable {life connecting : Passage}

theorem Phases.isOrderly (h : Phases w s life connecting work) :
    IsOrderly 0 life.entries life.ending.moment? := by
  have hwork : IsOrderly 0 (connecting.entries ++ work.entries) work.ending.moment? := by
    cases hend : connecting.ending.moment? with
    | some m =>
      have hc := h.connects.isOrderly
      rw [hend] at hc
      have hw : IsOrderly m.time work.entries work.ending.moment? := by
        refine h.works.isOrderly fun m' hm' => ?_
        rw [hend, Option.mem_def, Option.some.injEq] at hm'
        exact Nat.le_of_eq (by rw [hm'])
      exact hc.append hw
    | none =>
      -- connecting has not come to an end, so there is no work
      have hidle : work = { ending := connecting.ending } :=
        h.works.eq_idle fun m hm => by simp [hm, Ending.moment?] at hend
      rw [hidle, List.append_nil]
      exact h.connects.isOrderly
  rw [h.entries, h.ending]
  refine .cons (Nat.le_refl _) ?_
  cases hend : work.ending.moment? with
  | some m =>
    rw [hend] at hwork
    refine hwork.append (isOrderly_of_forall_eq (Nat.le_refl _) fun a ha => ?_)
    have := moment_of_mem_leave ha
    rw [hend] at this
    exact (Option.some.inj this).symm
  | none =>
    have hleave : leave w connecting.clients work.ending = [] := by
      revert hend
      cases work.ending <;> simp [Ending.moment?, leave]
    rw [hend] at hwork
    rwa [hleave, List.append_nil]

/-- Time does not go backwards in a life. -/
theorem life_isOrderly (w : Worker) (s : Surroundings) (horizon : Nat) :
    IsOrderly 0 (w.life s horizon).entries (w.life s horizon).ending.moment? := by
  obtain ⟨connecting, work, h⟩ := life_phases w s horizon
  exact h.isOrderly

/-- The beginning of a life is not behind the stop. -/
theorem stop_eq_of_stopped_zero (h : s.stopped 0 = true) : s.stop = some 0 := by
  obtain ⟨stop, hs, hle⟩ := s.stopped_iff.mp h
  rw [hs, Nat.le_zero.mp hle]

/-- Connecting ends in time, if there is a backend at least. -/
theorem Phases.connecting_agrees (h : Phases w s life connecting work) (hw : w.connectors ≠ []) :
    connecting.ending.Agrees s :=
  h.connects.agrees (by simpa using hw) stop_eq_of_stopped_zero

/-- Nothing is begun at or after the time at which the worker is asked to stop: no attempt to
    connect, no building of the resource, and no watch. -/
theorem Phases.stopped_eq_false (h : Phases w s life connecting work) (hw : w.connectors ≠ [])
    {a : Entry} (ha : a ∈ life.entries) (hd : a.deed.begins) : s.stopped a.moment.time = false := by
  rw [h.entries, List.mem_cons, List.mem_append, List.mem_append] at ha
  rcases ha with rfl | (ha | ha) | ha
  · simp [announced, Deed.begins] at hd
  · exact h.connects.stopped_eq_false a ha
  · have hm := h.works.moment_of_begins a ha hd
    have hagrees := h.connecting_agrees hw
    rw [hm] at hagrees
    exact hagrees
  · simp [Deed.begins_of_isLeaving (isLeaving_of_mem_leave ha)] at hd

/-- A life is told no further only before the worker is asked to stop. -/
theorem Phases.stopped_eq_false_of_pending (h : Phases w s life connecting work)
    (hw : w.connectors ≠ []) {time : Nat} (hend : life.ending = .pending time) :
    s.stopped time = false := by
  have hagrees := h.connecting_agrees hw
  have hworks := h.works
  rw [h.ending] at hend
  generalize connecting.ending = e at hagrees hworks
  cases hworks with
  | idle =>
    have hend : e = .pending time := hend
    rw [hend] at hagrees
    exact hagrees
  | refused | broken | watched | collapsed => simp at hend
  | endless horizon hstop =>
    refine s.stopped_eq_false_iff.mpr fun stop hs => ?_
    rw [hstop] at hs
    exact absurd hs (by simp)

/-- A life ends in time, or with the end of its monitor. -/
theorem Phases.agrees_or_dismissed (h : Phases w s life connecting work) (hw : w.connectors ≠ [])
    (hend : life.ending.moment? = some m) :
    life.ending.Agrees s ∨ ∃ a ∈ life.entries, a.deed = .dismiss ∧ a.moment = m := by
  have hagrees := h.connecting_agrees hw
  have hworks := h.works
  rw [h.ending] at hend ⊢
  rw [h.entries]
  generalize connecting.ending = e at hagrees hworks
  cases hworks with
  | idle => exact .inl hagrees
  | refused m' | broken m' => exact .inl hagrees
  | endless => simp [Ending.moment?] at hend
  | @watched m' done | @collapsed m' done =>
    have hdone : done = m := by simpa [Ending.moment?] using hend
    exact .inr ⟨⟨done, .dismiss⟩, by simp, rfl, hdone⟩

/-- Nothing in a life that has an end comes behind the stop and behind the end of its monitor. -/
theorem Phases.le_stop_or_dismissed (h : Phases w s life connecting work) (hw : w.connectors ≠ [])
    (htold : life.ending.told? = none) {stop : Nat} (hstop : s.stop = some stop) :
    (∀ a ∈ life.entries, a.moment.time ≤ stop) ∨
      ∃ d ∈ life.entries, d.deed = .dismiss ∧
        ∀ a ∈ life.entries, a.moment.time ≤ d.moment.time := by
  obtain ⟨m, hm⟩ : ∃ m, life.ending.moment? = some m := by
    cases hend : life.ending with
    | pending time => simp [hend, Ending.told?] at htold
    | reached m | stopped m | broken m => exact ⟨m, rfl⟩
  have hle : ∀ a ∈ life.entries, a.moment.time ≤ m.time := h.isOrderly.le_end m hm
  rcases h.agrees_or_dismissed hw hm with hagrees | ⟨d, hd, hdeed, rfl⟩
  · have hmstop : m.time ≤ stop := by
      cases hend : life.ending with
      | pending time => simp [hend, Ending.told?] at htold
      | reached m' | broken m' =>
        rw [hend] at hagrees hm
        cases hm
        exact Nat.le_of_lt (s.stopped_eq_false_iff.mp hagrees stop hstop)
      | stopped m' =>
        rw [hend] at hagrees hm
        cases hm
        rw [Ending.Agrees, hstop, Option.some.injEq] at hagrees
        exact Nat.le_of_eq hagrees.symm
    exact .inl fun a ha => Nat.le_trans (hle a ha) hmstop
  · exact .inr ⟨d, hd, hdeed, hle⟩

/-- A worker breaks down exactly if its life ends that way. -/
theorem Phases.breakDown_mem_iff (h : Phases w s life connecting work) :
    (∃ a ∈ life.entries, a.deed = .breakDown) ↔ ∃ m, life.ending = .broken m := by
  rw [h.entries, h.ending]
  constructor
  · rintro ⟨a, ha, hd⟩
    rw [List.mem_cons, List.mem_append, List.mem_append] at ha
    rcases ha with rfl | (ha | ha) | ha
    · simp [announced] at hd
    · obtain ⟨c, -, hc⟩ := h.connects.isConnecting a ha
      simp [hd, Deed.isConnecting] at hc
    · have hwork := h.works.isWorking a ha
      simp [hd, Deed.isWorking] at hwork
    · -- only who has broken down leaves this way
      cases hend : work.ending with
      | broken m => exact ⟨m, rfl⟩
      | pending => simp [hend, leave] at ha
      | reached m | stopped m =>
        rw [hend, leave, farewell_eq] at ha
        simp only [Worker.closings, List.mem_append, List.mem_map, List.mem_cons, List.not_mem_nil,
          or_false] at ha
        rcases ha with ⟨c, -, rfl⟩ | rfl | rfl <;> simp at hd
  · rintro ⟨m, hm⟩
    exact ⟨⟨m, .breakDown⟩, by simp [hm, leave, Worker.collapse], rfl⟩

/-- A worker whose life is cut off by the stop takes its leave at that time. -/
theorem Phases.stop_eq (h : Phases w s life connecting work) (hw : w.connectors ≠ [])
    (hend : life.ending = .stopped m) :
    s.stop = some m.time ∧ ∃ a ∈ life.entries, a.moment.time = m.time := by
  have hwork : work.ending = .stopped m := by rw [← h.ending, hend]
  constructor
  · -- it was cut off while it connected its backends
    have hagrees := h.connecting_agrees hw
    cases hc : connecting.ending with
    | reached m' =>
      have hworks := h.works
      rw [hc] at hworks
      exact absurd hwork (hworks.ending_ne_stopped m)
    | stopped _ | broken _ | pending _ =>
      rw [h.works.eq_idle (by simp [hc])] at hwork
      rw [hwork] at hagrees
      exact hagrees
  · refine ⟨⟨m, .publish (w.event .resourceStopped)⟩, ?_, rfl⟩
    rw [h.entries, hwork, leave, farewell_eq]
    simp

end Steward.Supervision
