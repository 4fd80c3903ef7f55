import Steward.Proofs.Supervision.EventTrace

/-!
# What is told under a name

All events of a worker name its resource, and the announcements of the supervisor name none. So the
events of a resource can be told apart by its name, unless another worker of the run has the same.

Results:
* `resource_of_mem_life`: the events of a worker name its resource.
* `Course.toldUnder_ofWorkers`: what is told under a name that only one worker has.
-/

namespace Steward.Supervision

open Backend (Connector)

variable {w : Worker} {s : Surroundings} {c : Connector} {cs : List Connector} {first horizon : Nat}
  {block es : List Event} {e : Event} {name : String} {p : Nat} {r : Round} {rs : List Round}

/-! ## The events of a worker -/

theorem resource_of_mem_failures {reasons : List String} :
    ∀ e ∈ failures w c first reasons, e.resource = some w.name := by
  induction reasons generalizing first with
  | nil => simp
  | cons reason reasons ih =>
    rw [failures_cons]
    refine List.forall_mem_append.mpr ⟨?_, ih⟩
    simp [failurePair, Event.withAttempt, Event.withDelay, Worker.backendEvent, Worker.event]

theorem Block.resource_eq (h : Block w c first block) : ∀ e ∈ block, e.resource = some w.name := by
  cases h with
  | connected reasons | skipped reasons =>
    refine List.forall_mem_append.mpr ⟨resource_of_mem_failures, ?_⟩
    simp [Event.withAttempt, Worker.backendEvent, Worker.event]

theorem Blocks.resource_eq (h : Blocks w cs es) : ∀ e ∈ es, e.resource = some w.name := by
  induction h with
  | nil => simp
  | cons h hrest ih => exact List.forall_mem_append.mpr ⟨h.resource_eq, ih⟩

theorem resource_of_mem_lastEvents :
    ∀ e ∈ lastEvents w es, e.resource = some w.name := by
  simp [lastEvents, Event.withReleased, Worker.event]

theorem IsComplete.resource_eq (h : IsComplete w es) : ∀ e ∈ es, e.resource = some w.name := by
  obtain ⟨backends, build, hblocks, hbuild, rfl⟩ := h
  have hresource : build.resource = some w.name := by
    obtain rfl | ⟨reason, rfl⟩ := hbuild <;> rfl
  refine List.forall_mem_append.mpr ⟨List.forall_mem_append.mpr ⟨?_, by simpa using hresource⟩,
    resource_of_mem_lastEvents⟩
  exact List.forall_mem_cons.mpr ⟨rfl, hblocks.resource_eq⟩

theorem IsCutOff.resource_eq (h : IsCutOff w es) : ∀ e ∈ es, e.resource = some w.name := by
  obtain ⟨backends, hcut, rfl⟩ := h
  obtain ⟨all, hall, hpart⟩ := hcut.exists_blocks
  refine List.forall_mem_append.mpr ⟨?_, resource_of_mem_lastEvents⟩
  exact List.forall_mem_cons.mpr ⟨rfl, fun e he => hall.resource_eq e (hpart.subset he)⟩

/-- All events of a worker name its resource. -/
theorem resource_of_mem_life (he : e ∈ events (w.life s horizon).entries) :
    e.resource = some w.name := by
  obtain ⟨all, hall, hpart⟩ := exists_prefix w s horizon
  rcases hall with hall | hall
  · exact hall.resource_eq e (hpart.subset he)
  · exact hall.resource_eq e (hpart.subset he)

/-! ## What is told in rounds -/

/-- The events about a resource of a name in some rounds, with their times. -/
def toldUnder (name : String) (rs : List Round) : List (Nat × Event) :=
  rs.flatMap fun r => (r.events.filter fun e => e.resource = some name).map fun e => (r.time, e)

/-- The events among some deeds, with their times. -/
def timedEvents (deeds : List (Nat × Deed)) : List (Nat × Event) :=
  deeds.filterMap fun x => x.2.event?.map fun e => (x.1, e)

/-- The worker at a position is the only one that names a resource in what it tells. -/
def IsOnlyTeller (name : String) (p : Nat) (acts : List Act) : Prop :=
  ∀ act ∈ acts, ∀ e, act.deed.event? = some e → (e.resource = some name ↔ act.worker = some p)

theorem Round.timedEvents_deedsOf (h : IsOnlyTeller name p r.acts) :
    timedEvents (r.deedsOf p) =
      (r.events.filter fun e => e.resource = some name).map fun e => (r.time, e) := by
  rw [timedEvents, deedsOf, events, List.filter_filterMap, List.map_filterMap, List.filterMap_map,
    List.filterMap_filter]
  refine List.filterMap_congr fun act hact => ?_
  cases hevent : act.deed.event? with
  | none => simp [hevent]
  | some e =>
    have hiff := h act hact e hevent
    by_cases hwork : act.worker = some p
    · simp [hevent, hwork, Option.filter, hiff.mpr hwork]
    · simp [hwork, Option.filter, mt hiff.mp hwork]

/-- If only one worker names a resource, what is told under its name is what this worker tells. -/
theorem toldUnder_eq (h : ∀ r ∈ rs, IsOnlyTeller name p r.acts) :
    toldUnder name rs = timedEvents (deedsOf p rs) := by
  rw [timedEvents, deedsOf, List.filterMap_flatMap]
  exact List.flatMap_congr fun r hr => (Round.timedEvents_deedsOf (h r hr)).symm

/-! ## What is told in a run -/

/-- The supervisor names no resource in what it announces. -/
theorem isOnlyTeller_announcement (time : Nat) (he : e.resource = none) :
    IsOnlyTeller name p (Course.announcement time e).acts := by
  intro act hact f hevent
  obtain rfl := List.mem_singleton.mp hact
  obtain rfl := Option.some.inj hevent
  simp [he]

theorem Course.mem_rounds_cases {course : Course} (hr : r ∈ course.rounds) :
    r ∈ course.before ++ course.after ∨
      ∃ time e, e.resource = none ∧ r = announcement time e := by
  rw [rounds, List.mem_append, List.mem_append, List.mem_append] at hr
  rcases hr with ((hr | hr) | hr) | hr
  · exact .inl (List.mem_append_left _ hr)
  · obtain ⟨time, -, rfl⟩ := Option.map_eq_some_iff.mp (Option.mem_toList.mp hr)
    exact .inr ⟨time, shutdownRequested, rfl, rfl⟩
  · exact .inl (List.mem_append_right _ hr)
  · unfold closing at hr
    split at hr
    · next time _ _ =>
      exact .inr ⟨_, allStopped, rfl, List.mem_singleton.mp hr⟩
    · exact absurd hr List.not_mem_nil

/-- The worker at a position is the only one with a name. -/
def IsOnly (name : String) (p : Nat) (ws : List Worker) : Prop :=
  ∀ j w, ws[j]? = some w → (w.name = name ↔ j = p)

/-- What is told in a course under a name that only one worker has. -/
theorem Course.toldUnder_ofWorkers {ws : List Worker} (honly : IsOnly name p ws)
    (s : Surroundings) (horizon : Nat) :
    toldUnder name (ofWorkers ws s horizon).rounds =
      timedEvents (deedsOf p (ofWorkers ws s horizon).rounds) := by
  refine toldUnder_eq fun r hr => ?_
  rcases mem_rounds_cases hr with hr | ⟨time, e, he, rfl⟩
  · intro act hact e hevent
    obtain ⟨j, life, hlife, hwork, a, ha, -, hdeed⟩ :=
      (ofWorkers_unfolds ws s horizon).exists_entry (isProper_lives ws s horizon) hr hact
    rw [List.getElem?_map, Option.map_eq_some_iff] at hlife
    obtain ⟨w, hw, rfl⟩ := hlife
    have htold : e ∈ events (w.life s horizon).entries :=
      List.mem_filterMap.mpr ⟨a, ha, by rw [hdeed, hevent]⟩
    rw [resource_of_mem_life htold, hwork, Option.some_inj, Option.some_inj]
    exact honly j w hw
  · exact isOnlyTeller_announcement time he

end Steward.Supervision
