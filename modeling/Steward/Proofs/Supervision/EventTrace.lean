import Steward.Proofs.Supervision.Course

/-!
# The events of a worker

The events that a worker publishes follow a grammar. The worker announces itself; then comes a block
for each of its backends, in their order: pairs of a failed attempt and the announcement of another
one, numbered from one on, and then the success, or the news that the backend is not configured.
When all blocks are complete, the resource is built or cannot be built. The last two events tell
that the worker has ended, and how many sessions it has closed.

Results:
* `Connects.events_eq`, `ConnectsAll.blocks`: connecting publishes such blocks, the last of which
  may be cut off behind a pair.
* `Phases.tells`: the events of a life, depending on how it ends.
* `Supervisor.run_tells`: the events of each worker in a run.
-/

namespace Steward.Supervision

open Backend (Client Connector)

/-! ## The grammar -/

section Grammar
variable (w : Worker) (c : Connector)

/-- The events after the failed attempt with a number. -/
def failurePair (number : Nat) (reason : String) : List Event :=
  [{ (w.backendEvent .backendConnectFailed c).withAttempt number with reason := some reason },
    ((w.backendEvent .retryScheduled c).withAttempt number).withDelay (w.retryDelay * 1000000)]

/-- The events after failed attempts, one for each reason, numbered from `first` on. -/
def failures (first : Nat) (reasons : List String) : List Event :=
  (reasons.zipIdx first).flatMap fun r => failurePair w c r.2 r.1

/-- The events about a backend, with attempts numbered from `first` on. -/
inductive Block (first : Nat) : List Event → Prop
  /-- It is connected with the attempt behind those that failed. -/
  | connected (reasons : List String) :
      Block first (failures w c first reasons ++
        [(w.backendEvent .backendConnected c).withAttempt (first + reasons.length)])
  /-- It is not configured. -/
  | skipped (reasons : List String) :
      Block first (failures w c first reasons ++ [w.backendEvent .backendSkipped c])

/-- The events about some backends, a block for each of them in their order. -/
inductive Blocks : List Connector → List Event → Prop
  | nil : Blocks [] []
  | cons {c : Connector} {cs : List Connector} {block rest : List Event} (h : Block w c 1 block)
      (hrest : Blocks cs rest) : Blocks (c :: cs) (block ++ rest)

/-- The events about some backends that are cut off behind a block or behind a failed attempt in
    one. -/
def AreCutOff (cs : List Connector) (es : List Event) : Prop :=
  ∃ done c others blocks reasons, cs = done ++ c :: others ∧ Blocks w done blocks ∧
    es = blocks ++ failures w c 1 reasons

/-- The number of backends that are connected. -/
def connectedCount (es : List Event) : Nat := es.countP fun e => e.kind = .backendConnected

/-- What a worker tells last, behind some events about its backends. -/
def lastEvents (backends : List Event) : List Event :=
  [w.event .resourceStopped, (w.event .backendsReleased).withReleased (connectedCount backends)]

/-- The event that tells what has become of building the resource. -/
def IsBuildEvent (e : Event) : Prop :=
  e = w.event .resourceWatching ∨
    ∃ reason, e = { w.event .resourceBuildFailed with reason := some reason }

/-- The events of a worker whose backends are all connected or not configured. -/
def IsComplete (es : List Event) : Prop :=
  ∃ backends build, Blocks w w.connectors backends ∧ IsBuildEvent w build ∧
    es = w.event .resourceStarting :: backends ++ [build] ++ lastEvents w backends

/-- The events of a worker that is asked to stop while it connects its backends. -/
def IsCutOff (es : List Event) : Prop :=
  ∃ backends, AreCutOff w w.connectors backends ∧
    es = w.event .resourceStarting :: backends ++ lastEvents w backends

/-- The events of a worker that breaks down or goes on: the beginning of complete ones, before the
    last two. -/
def IsUnfinished (es : List Event) : Prop :=
  (∃ all, IsComplete w all ∧ es <+: all) ∧
    ∀ e ∈ es, e.kind ≠ .resourceStopped ∧ e.kind ≠ .backendsReleased

/-- How the events of a worker go, depending on how its life ends. -/
def Tells : Ending → List Event → Prop
  | .reached _, es => IsComplete w es
  | .stopped _, es => IsCutOff w es
  | .broken _, es => IsUnfinished w es
  | .pending _, es => IsUnfinished w es

end Grammar

/-! ## Blocks -/

variable {w : Worker} {s : Surroundings} {c : Connector} {cs : List Connector} {first before : Nat}
  {position : Nat} {m : Moment} {p : Passage} {block es : List Event}

@[simp] theorem failures_nil : failures w c first [] = [] := rfl

@[simp] theorem failures_cons (reason : String) (reasons : List String) :
    failures w c first (reason :: reasons) =
      failurePair w c first reason ++ failures w c (first + 1) reasons := by
  rw [failures, List.zipIdx_cons, List.flatMap_cons]
  rfl

/-- The kinds of events about a backend. -/
def IsBackendKind (k : EventKind) : Prop :=
  k = .backendConnected ∨ k = .backendSkipped ∨ k = .backendConnectFailed ∨ k = .retryScheduled

theorem kind_of_mem_failures {reasons : List String} :
    ∀ e ∈ failures w c first reasons,
      e.kind = .backendConnectFailed ∨ e.kind = .retryScheduled := by
  induction reasons generalizing first with
  | nil => simp
  | cons reason reasons ih =>
    rw [failures_cons]
    refine List.forall_mem_append.mpr ⟨?_, ih⟩
    simp [failurePair, Event.withAttempt, Event.withDelay, Worker.backendEvent, Worker.event]

@[simp] theorem connectedCount_append (es fs : List Event) :
    connectedCount (es ++ fs) = connectedCount es + connectedCount fs := List.countP_append

theorem Block.isBackendKind (h : Block w c first block) : ∀ e ∈ block, IsBackendKind e.kind := by
  have hfailures : ∀ {reasons : List String}, ∀ e ∈ failures w c first reasons,
      IsBackendKind e.kind := fun e he => .inr (.inr (kind_of_mem_failures e he))
  cases h with
  | connected reasons =>
    refine List.forall_mem_append.mpr ⟨hfailures, ?_⟩
    simp [IsBackendKind, Event.withAttempt, Worker.backendEvent, Worker.event]
  | skipped reasons =>
    refine List.forall_mem_append.mpr ⟨hfailures, ?_⟩
    simp [IsBackendKind, Worker.backendEvent, Worker.event]

theorem Blocks.isBackendKind (h : Blocks w cs es) : ∀ e ∈ es, IsBackendKind e.kind := by
  induction h with
  | nil => simp
  | cons h hrest ih => exact List.forall_mem_append.mpr ⟨h.isBackendKind, ih⟩

theorem AreCutOff.isBackendKind (h : AreCutOff w cs es) : ∀ e ∈ es, IsBackendKind e.kind := by
  obtain ⟨done, c, others, blocks, reasons, rfl, hblocks, rfl⟩ := h
  refine List.forall_mem_append.mpr ⟨hblocks.isBackendKind, fun e he => ?_⟩
  exact .inr (.inr (kind_of_mem_failures e he))

theorem Blocks.append {cs ds : List Connector} {es fs : List Event} (h : Blocks w cs es)
    (h' : Blocks w ds fs) : Blocks w (cs ++ ds) (es ++ fs) := by
  induction h with
  | nil => exact h'
  | cons h hrest ih =>
    rw [List.cons_append, List.append_assoc]
    exact .cons h ih

/-- Blocks can be continued for any backends. -/
theorem exists_blocks (w : Worker) (cs : List Connector) : ∃ es, Blocks w cs es := by
  induction cs with
  | nil => exact ⟨[], .nil⟩
  | cons c cs ih =>
    obtain ⟨es, h⟩ := ih
    exact ⟨_, .cons (.skipped []) h⟩

/-- What is cut off can be completed. -/
theorem AreCutOff.exists_blocks (h : AreCutOff w cs es) : ∃ all, Blocks w cs all ∧ es <+: all := by
  obtain ⟨done, c, others, blocks, reasons, rfl, hblocks, rfl⟩ := h
  obtain ⟨rest, hrest⟩ := Supervision.exists_blocks w others
  refine ⟨_, hblocks.append (.cons (.skipped reasons) hrest), ?_⟩
  rw [List.append_assoc, List.prefix_append_right_inj]
  exact List.prefix_append ..

/-! ## Connecting -/

theorem events_failureEntries (e : Backend.ConnectError) :
    events (failureEntries w position c before m e) = failurePair w c (before + 1) e.message := by
  simp [failureEntries, Worker.failureEvents, events, Deed.event?, failurePair]

/-- What connecting a backend publishes: a block, if it succeeds or the backend is not configured,
    and the beginning of one otherwise. -/
theorem Connects.events_eq (h : Connects w s position c before m p) :
    (∀ m', p.ending = .reached m' → Block w c (before + 1) (events p.entries)) ∧
      ((∀ m', p.ending ≠ .reached m') →
        ∃ reasons, events p.entries = failures w c (before + 1) reasons) ∧
      connectedCount (events p.entries) = p.clients.length := by
  induction h with
  | untold | asked | cutOff | broken => exact ⟨by simp, fun _ => ⟨[], rfl⟩, rfl⟩
  | connected => exact ⟨fun _ _ => .connected [], by simp, rfl⟩
  | skipped => exact ⟨fun _ _ => .skipped [], by simp, rfl⟩
  | @pausing before m e h he hs =>
    have hevents : events (failureEntries w position c before m e) =
        failurePair w c (before + 1) e.message :=
      events_failureEntries e
    refine ⟨by simp, fun _ => ⟨[e.message], ?_⟩, ?_⟩
    · rw [hevents]
      simp
    · rw [hevents]
      rfl
  | @again before m e rest h he hs hrest ih =>
    obtain ⟨hreached, hcut, hcount⟩ := ih
    dsimp only
    rw [events_append, events_failureEntries, connectedCount_append, hcount]
    refine ⟨fun m' hm' => ?_, fun hend => ?_, ?_⟩
    · -- one more failed attempt before the others
      have hblock := hreached m' hm'
      revert hblock
      generalize events rest.entries = es
      rintro (reasons | reasons)
      · rw [← List.append_assoc, ← failures_cons]
        have hnumber : before + 1 + 1 + reasons.length =
            before + 1 + (e.message :: reasons).length := by
          rw [List.length_cons]
          omega
        rw [hnumber]
        exact .connected _
      · rw [← List.append_assoc, ← failures_cons]
        exact .skipped _
    · obtain ⟨reasons, hreasons⟩ := hcut hend
      exact ⟨e.message :: reasons, by rw [hreasons, failures_cons]⟩
    · have hnone : connectedCount (failurePair w c (before + 1) e.message) = 0 := rfl
      rw [hnone, Nat.zero_add]

/-- What connecting backends publishes: a block for each of them, if all are connected or not
    configured, and blocks that are cut off otherwise. -/
theorem ConnectsAll.blocks {cs : List (Connector × Nat)} (h : ConnectsAll w s cs m p) :
    (∀ m', p.ending = .reached m' → Blocks w (cs.map Prod.fst) (events p.entries)) ∧
      ((∀ m', p.ending ≠ .reached m') → AreCutOff w (cs.map Prod.fst) (events p.entries)) ∧
      connectedCount (events p.entries) = p.clients.length := by
  induction h with
  | done m => exact ⟨fun _ _ => .nil, fun hend => absurd rfl (hend m), rfl⟩
  | @next c position others m m' first rest hfirst hend hrest ih =>
    obtain ⟨hreached, hcut, hcount⟩ := ih
    obtain ⟨hblock, -, hfirstCount⟩ := hfirst.events_eq
    rw [List.map_cons, events_append, connectedCount_append, hcount, hfirstCount,
      List.length_append]
    refine ⟨fun m'' hm'' => .cons (hblock m' hend) (hreached m'' hm''), fun hend' => ?_, rfl⟩
    obtain ⟨done, c', others', blocks, reasons, heq, hblocks, hevents⟩ := hcut hend'
    refine ⟨c :: done, c', others', _, reasons, by rw [heq]; rfl,
      .cons (hblock m' hend) hblocks, ?_⟩
    rw [hevents, List.append_assoc]
  | @last c position others m first hfirst hend =>
    obtain ⟨-, hcut, hcount⟩ := hfirst.events_eq
    refine ⟨fun m' hm' => absurd hm' (hend m'), fun hend' => ?_, hcount⟩
    obtain ⟨reasons, hreasons⟩ := hcut hend'
    exact ⟨[], c, others.map Prod.fst, [], reasons, rfl, .nil, by rw [hreasons]; rfl⟩

/-! ## The whole life -/

theorem events_closings (clients : List Client) (m : Moment) :
    events (Worker.closings clients m) = [] := by
  refine List.filterMap_eq_nil_iff.mpr fun e he => ?_
  obtain ⟨c, -, rfl⟩ := List.mem_map.mp he
  rfl

theorem events_leave (w : Worker) (clients : List Client) (e : Ending) :
    events (leave w clients e) = match e with
      | .reached _ | .stopped _ =>
        [w.event .resourceStopped, (w.event .backendsReleased).withReleased clients.length]
      | .broken _ | .pending _ => [] := by
  cases e with
  | reached m | stopped m =>
    rw [leave, farewell_eq, events_append, events_closings]
    rfl
  | broken m =>
    rw [leave, Worker.collapse, events_append, events_closings]
    rfl
  | pending => rfl

theorem events_watchEntries {clients : List Client} {readings : List Entry}
    (hread : AreReadings readings) :
    events (watchEntries w s clients m readings) = [w.event .resourceWatching] := by
  have hnone : events readings = [] := by
    refine List.filterMap_eq_nil_iff.mpr fun e he => ?_
    obtain ⟨answers, hd⟩ := hread e he
    rw [hd]
    rfl
  simp [watchEntries, events_cons, Deed.event?, hnone]

/-- What work publishes, if there is any: whether the resource was built. Only a builder that breaks
    down publishes nothing. -/
theorem Works.events_eq {clients : List Client} {work : Passage}
    (h : Works w s clients (.reached m) work) :
    (∃ build, IsBuildEvent w build ∧ events work.entries = [build]) ∨
      (events work.entries = [] ∧ work.ending = .broken m) := by
  cases h with
  | idle h => exact absurd rfl (h m)
  | @refused e => exact .inl ⟨_, .inr ⟨e.message, rfl⟩, rfl⟩
  | broken => exact .inr ⟨rfl, rfl⟩
  | endless horizon hstop hread hord => exact .inl ⟨_, .inl rfl, events_watchEntries hread⟩
  | watched hread hord | collapsed hread hord =>
    refine .inl ⟨_, .inl rfl, ?_⟩
    rw [events_append, events_watchEntries hread]
    rfl

/-- Events that go on with blocks are unfinished. -/
theorem isUnfinished_of_prefix {all : List Event} (hall : Blocks w w.connectors all)
    (hpart : es <+: all) : IsUnfinished w (w.event .resourceStarting :: es) := by
  refine ⟨⟨_, ⟨all, w.event .resourceWatching, hall, .inl rfl, rfl⟩, ?_⟩, ?_⟩
  · rw [List.append_assoc, List.cons_append, List.prefix_cons_inj]
    exact hpart.trans (List.prefix_append ..)
  · refine List.forall_mem_cons.mpr ⟨by simp [Worker.event], fun e he => ?_⟩
    rcases hall.isBackendKind e (hpart.subset he) with h | h | h | h <;> simp [h]

/-- Events that end with the one that tells what has become of building are unfinished. -/
theorem isUnfinished_of_blocks {build : Event} (h : Blocks w w.connectors es)
    (hbuild : IsBuildEvent w build) :
    IsUnfinished w (w.event .resourceStarting :: es ++ [build]) := by
  refine ⟨⟨_, ⟨es, build, h, hbuild, rfl⟩, List.prefix_append ..⟩, ?_⟩
  have hkind : build.kind ≠ .resourceStopped ∧ build.kind ≠ .backendsReleased := by
    obtain rfl | ⟨reason, rfl⟩ := hbuild <;> simp [Worker.event]
  refine List.forall_mem_append.mpr ⟨List.forall_mem_cons.mpr ⟨by simp [Worker.event], ?_⟩, ?_⟩
  · intro e he
    rcases h.isBackendKind e he with h | h | h | h <;> simp [h]
  · simpa using hkind

/-- The events of a life follow the grammar, depending on how it ends. -/
theorem Phases.tells {life connecting work : Passage} (h : Phases w s life connecting work) :
    Tells w life.ending (events life.entries) := by
  obtain ⟨hconnects, hworks, hentries, hending⟩ := h
  obtain ⟨hreached, hcut, hcount⟩ := hconnects.blocks
  have hfst : w.connectors.zipIdx.map Prod.fst = w.connectors := List.zipIdx_map_fst 0 _
  rw [hfst] at hreached hcut
  have hevents : events life.entries = w.event .resourceStarting :: events connecting.entries ++
      events work.entries ++ events (leave w connecting.clients work.ending) := by
    rw [hentries, events_cons, events_append, events_append]
    rfl
  rw [hevents, hending, events_leave, ← hcount]
  by_cases hend : ∃ m, connecting.ending = .reached m
  · -- all backends are connected or not configured
    obtain ⟨m, hm⟩ := hend
    have hblocks := hreached m hm
    rw [hm] at hworks
    rcases hworks.events_eq with ⟨build, hbuild, hwork⟩ | ⟨hwork, hbroken⟩
    · rw [hwork]
      cases hwend : work.ending with
      | reached m' => exact ⟨_, build, hblocks, hbuild, rfl⟩
      | stopped m' => exact absurd hwend (hworks.ending_ne_stopped m')
      | broken m' | pending time =>
        rw [List.append_nil]
        exact isUnfinished_of_blocks hblocks hbuild
    · rw [hwork, hbroken, List.append_nil, List.append_nil]
      exact isUnfinished_of_prefix hblocks (List.prefix_refl _)
  · -- there is no work
    have hend : ∀ m, connecting.ending ≠ .reached m := fun m hm => hend ⟨m, hm⟩
    have hcutOff := hcut hend
    obtain ⟨all, hall, hpart⟩ := hcutOff.exists_blocks
    have hidle : work = { ending := connecting.ending } := hworks.eq_idle hend
    rw [hidle]
    cases hcend : connecting.ending with
    | reached m => exact absurd hcend (hend m)
    | stopped m =>
      refine ⟨_, hcutOff, ?_⟩
      rw [events_nil, List.append_nil]
      rfl
    | broken m | pending time =>
      rw [events_nil, List.append_nil, List.append_nil]
      exact isUnfinished_of_prefix hall hpart

/-! ## The events of a worker in a run -/

/-- The events that the worker at a position publishes in some rounds. -/
def eventsOf (i : Nat) (rs : List Round) : List Event :=
  (deedsOf i rs).filterMap fun x => x.2.event?

theorem filterMap_story (es : List Entry) :
    ((story es).filterMap fun x => x.2.event?) = events es := by
  rw [story, List.filterMap_map]
  rfl

theorem IsUnfinished.of_prefix {fs : List Event} (h : IsUnfinished w fs) (hpart : es <+: fs) :
    IsUnfinished w es := by
  obtain ⟨⟨all, hall, hfs⟩, hkinds⟩ := h
  exact ⟨⟨all, hall, hpart.trans hfs⟩, fun e he => hkinds e (hpart.subset he)⟩

/-- A life that has an end and does not break down tells all, or is cut off by the stop. -/
theorem tells_of_told {horizon : Nat} (htold : (w.life s horizon).ending.told? = none)
    (hbreak : ¬∃ a ∈ (w.life s horizon).entries, a.deed = .breakDown) :
    IsComplete w (events (w.life s horizon).entries) ∨
      (IsCutOff w (events (w.life s horizon).entries) ∧
        ∃ m, (w.life s horizon).ending = .stopped m) := by
  obtain ⟨connecting, work, h⟩ := life_phases w s horizon
  have htells := h.tells
  rw [h.breakDown_mem_iff] at hbreak
  cases hend : (w.life s horizon).ending with
  | reached m =>
    rw [hend] at htells
    exact .inl htells
  | stopped m =>
    rw [hend] at htells
    exact .inr ⟨htells, m, rfl⟩
  | broken m => exact absurd ⟨m, hend⟩ hbreak
  | pending time => simp [hend, Ending.told?] at htold

/-- The events of each life begin like those of one that tells all or is cut off. -/
theorem exists_prefix (w : Worker) (s : Surroundings) (horizon : Nat) :
    ∃ all, (IsComplete w all ∨ IsCutOff w all) ∧ events (w.life s horizon).entries <+: all := by
  obtain ⟨connecting, work, h⟩ := life_phases w s horizon
  have htells := h.tells
  cases hend : (w.life s horizon).ending with
  | reached m =>
    rw [hend] at htells
    exact ⟨_, .inl htells, List.prefix_refl _⟩
  | stopped m =>
    rw [hend] at htells
    exact ⟨_, .inr htells, List.prefix_refl _⟩
  | broken m | pending time =>
    rw [hend] at htells
    obtain ⟨⟨all, hall, hpart⟩, -⟩ := htells
    exact ⟨all, .inl hall, hpart⟩

section
variable {lives : List Passage} {life connecting work : Passage} {told i : Nat} {course : Course}
  (h : Unfolds lives s told course) (hproper : (Troupe.ofLives lives).IsProper)
  (hlife : lives[i]? = some life)
include h hproper hlife

/-- What a worker publishes in a course is the beginning of what it publishes in its life. -/
theorem Unfolds.eventsOf_prefix : eventsOf i course.rounds <+: events life.entries := by
  rw [← filterMap_story]
  exact (h.deedsOf_rounds_prefix hproper hlife).filterMap _

/-- When all workers have ended, it has published all. -/
theorem Unfolds.eventsOf_eq (hfinish : course.finish.isSome = true) :
    eventsOf i course.rounds = events life.entries := by
  obtain ⟨-, hstory⟩ := h.deedsOf_rounds_eq hproper hlife hfinish
  rw [eventsOf, hstory, filterMap_story]

theorem Unfolds.exists_breakDown
    (hbreak : Deed.breakDown ∈ (deedsOf i course.rounds).map Prod.snd) :
    ∃ a ∈ life.entries, a.deed = .breakDown := by
  have hstory := ((h.deedsOf_rounds_prefix hproper hlife).map Prod.snd).subset hbreak
  simpa [story] using hstory

theorem Unfolds.breakDown_mem (hfinish : course.finish.isSome = true)
    (hbreak : ∃ a ∈ life.entries, a.deed = .breakDown) :
    Deed.breakDown ∈ (deedsOf i course.rounds).map Prod.snd := by
  obtain ⟨-, hstory⟩ := h.deedsOf_rounds_eq hproper hlife hfinish
  rw [hstory]
  simpa [story] using hbreak

/-- If a worker takes its leave because it was asked to stop, the run was asked. -/
theorem Unfolds.stop_isSome_of_stopped (hphases : Phases w s life connecting work)
    (hw : w.connectors ≠ []) (hfinish : course.finish.isSome = true) {m : Moment}
    (hm : life.ending = .stopped m) : course.stop.isSome = true := by
  have hmem := List.mem_of_getElem? hlife
  obtain ⟨hstop, a, ha, htime⟩ := hphases.stop_eq hw hm
  obtain ⟨-, htold⟩ := (h.finish_isSome_iff hproper).mp hfinish life hmem
  have hcourse : course.stop = some m.time := by
    refine (h.stop_eq_some_iff hproper).mpr ⟨hstop, htime ▸ htold a ha, .inr ?_⟩
    refine ⟨life, hmem, fun hbefore => ?_⟩
    have hlt := hbefore.2 a ha
    omega
  rw [hcourse]
  rfl

end

end Steward.Supervision
