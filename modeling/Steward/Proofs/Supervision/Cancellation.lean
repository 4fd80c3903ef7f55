import Steward.Proofs.Supervision.Attempts
import Steward.Proofs.Supervision.Course
import Steward.Proofs.Supervision.Horizon
import Steward.Proofs.Supervision.Ties

/-!
# Being asked to stop while connecting

A worker that is asked to stop while it connects its backends has done until then what it would
have done anyway, and does nothing more about them. It takes its leave at that time, whatever it
waits for then: an attempt, or the end of the pause behind one.

Results:
* `connect_left`, `connectAll_left`: what is left of connecting with a stop.
* `Supervisor.worker_leaves_at_stop`: the life of a worker that is asked to stop while it connects
  its backends.
-/

namespace Steward.Supervision

open Backend (Client Connector ConnectError ConnectOutcome)

/-- How a worker connects its backends that is never asked to stop. -/
def Worker.connecting (w : Worker) (world : Nat → World) (horizon : Nat) : Passage :=
  w.connectAll ⟨none, world⟩ (w.triesWithin horizon) w.connectors.zipIdx {}

/-- The entries before a time. -/
def entriesBefore (time : Nat) (es : List Entry) : List Entry :=
  es.filter fun e => e.moment.time < time

/-- A part of a life that is cut off from a longer one at a time. -/
structure Passage.IsCutAt (stop : Nat) (whole cut : Passage) : Prop where
  entries : cut.entries = entriesBefore stop whole.entries
  ending : ∃ m, cut.ending = .stopped m ∧ m.time = stop

/-- What is left of a part of a life with a stop at a time: it is cut off if it goes on until then,
    and all of it is left if it does not. -/
structure Passage.IsLeftOf (stop : Nat) (whole left : Passage) : Prop where
  of_le : stop ≤ whole.ending.time → whole.IsCutAt stop left
  of_lt : whole.ending.time < stop → left = whole

variable {w : Worker} {s : Surroundings} {world : Nat → World} {c : Connector} {m : Moment}
  {position tries before stop horizon : Nat} {p : Passage} {cs : List (Connector × Nat)}

/-! ## Entries before a time -/

theorem entriesBefore_append (time : Nat) (es fs : List Entry) :
    entriesBefore time (es ++ fs) = entriesBefore time es ++ entriesBefore time fs :=
  List.filter_append ..

theorem entriesBefore_eq_self {time : Nat} {es : List Entry} (h : ∀ e ∈ es, e.moment.time < time) :
    entriesBefore time es = es :=
  List.filter_eq_self.mpr fun e he => decide_eq_true (h e he)

theorem entriesBefore_eq_nil {time : Nat} {es : List Entry} (h : ∀ e ∈ es, time ≤ e.moment.time) :
    entriesBefore time es = [] :=
  List.filter_eq_nil_iff.mpr fun e he => by simpa using h e he

/-! ## What is left -/

/-- A part is cut off where all that is left of it comes before the stop, and nothing else does. -/
theorem Passage.IsLeftOf.of_append {whole : Passage} {es fs : List Entry}
    (hend : stop ≤ whole.ending.time) (heq : whole.entries = es ++ fs)
    (hes : ∀ a ∈ es, a.moment.time < stop) (hfs : ∀ a ∈ fs, stop ≤ a.moment.time)
    (hm : m.time = stop) : whole.IsLeftOf stop { entries := es, ending := .stopped m } where
  of_le _ := by
    refine ⟨?_, m, rfl, hm⟩
    rw [heq, entriesBefore_append, entriesBefore_eq_self hes, entriesBefore_eq_nil hfs,
      List.append_nil]
  of_lt hlt := absurd hlt (Nat.not_lt.mpr hend)

theorem Passage.isLeftOf_self {whole : Passage} (h : whole.ending.time < stop) :
    whole.IsLeftOf stop whole :=
  ⟨fun hle => absurd h (Nat.not_lt.mpr hle), fun _ => rfl⟩

/-- What comes before the stop is left in front of the rest. -/
theorem Passage.IsLeftOf.prepend {whole left : Passage} (h : whole.IsLeftOf stop left)
    {es : List Entry} (hes : ∀ a ∈ es, a.moment.time < stop) (clients : List Client) :
    IsLeftOf stop ⟨es ++ whole.entries, clients ++ whole.clients, whole.ending⟩
      ⟨es ++ left.entries, clients ++ left.clients, left.ending⟩ where
  of_le hle := by
    obtain ⟨hentries, hending⟩ := h.of_le hle
    exact ⟨by rw [entriesBefore_append, entriesBefore_eq_self hes, hentries], hending⟩
  of_lt hlt := by rw [h.of_lt hlt]

/-- What comes behind the stop is not left. -/
theorem Passage.IsCutAt.extend {whole left rest : Passage} (h : whole.IsCutAt stop left)
    (hrest : ∀ a ∈ rest.entries, stop ≤ a.moment.time) (hend : stop ≤ rest.ending.time)
    (clients : List Client) :
    IsLeftOf stop ⟨whole.entries ++ rest.entries, clients, rest.ending⟩ left where
  of_le _ := by
    refine ⟨?_, h.ending⟩
    rw [entriesBefore_append, entriesBefore_eq_nil hrest, List.append_nil, h.entries]
  of_lt hlt := absurd hlt (Nat.not_lt.mpr hend)

/-! ## Connecting -/

theorem stopped_some_iff (world : Nat → World) {time : Nat} :
    (⟨some stop, world⟩ : Surroundings).stopped time = true ↔ stop ≤ time := by
  simp [Surroundings.stopped]

theorem stopped_some_eq_false_iff (world : Nat → World) {time : Nat} :
    (⟨some stop, world⟩ : Surroundings).stopped time = false ↔ time < stop := by
  simp [Surroundings.stopped]

/-- What is left of connecting a backend behind an attempt that fails in time. -/
theorem connect_left_of_failed {e : ConnectError}
    (h : Completes ⟨some stop, world⟩ c before m (.failed e)) (he : e.isRetryable = true)
    (hrest : ((attemptDone c before m).later w.retryDelay).time < stop →
      (w.connect ⟨none, world⟩ position c tries (before + 1)
        ((attemptDone c before m).later w.retryDelay)).IsLeftOf stop
        (w.connect ⟨some stop, world⟩ position c tries (before + 1)
          ((attemptDone c before m).later w.retryDelay))) :
    (w.connect ⟨none, world⟩ position c (tries + 1) before m).IsLeftOf stop
      (w.connect ⟨some stop, world⟩ position c (tries + 1) before m) := by
  have hfailed : ∀ a ∈ failureEntries w position c before m e, a.moment.time < stop :=
    fun a ha => (stopped_some_eq_false_iff world).mp (stopped_failureEntries h a ha)
  rw [connect_of_failed (s := ⟨none, world⟩) ⟨rfl, rfl, h.outcome⟩ he rfl]
  rcases Nat.lt_or_ge ((attemptDone c before m).later w.retryDelay).time stop with hs | hs
  · -- another attempt follows
    rw [connect_of_failed h he ((stopped_some_eq_false_iff world).mpr hs)]
    exact (hrest hs).prepend hfailed []
  · -- the stop comes in the pause
    obtain ⟨hentries, hend⟩ := le_connect_none w world position c tries (before + 1)
      ((attemptDone c before m).later w.retryDelay)
    rw [connect_of_pausing h he ((stopped_some_iff world).mpr hs)]
    exact .of_append (Nat.le_trans hs hend) rfl hfailed
      (fun a ha => Nat.le_trans hs (hentries a ha)) rfl

/-- What is left of connecting a backend. -/
theorem connect_left (w : Worker) (world : Nat → World) (position : Nat) (c : Connector)
    (before : Nat) (hm : m.time ≤ stop) (htries : 0 < tries ∨ m.time < stop) :
    (w.connect ⟨none, world⟩ position c tries before m).IsLeftOf stop
      (w.connect ⟨some stop, world⟩ position c tries before m) := by
  induction tries generalizing before m with
  | zero => exact Passage.isLeftOf_self (htries.resolve_left (Nat.lt_irrefl 0))
  | succ tries ih =>
    rcases Nat.eq_or_lt_of_le hm with heq | hlt
    · -- the stop comes before the attempt
      obtain ⟨hentries, hend⟩ := le_connect_none w world position c (tries + 1) before m
      rw [connect_of_asked ((stopped_some_iff world).mpr (Nat.le_of_eq heq.symm))]
      rw [heq] at hentries hend
      exact .of_append hend rfl (by simp) hentries heq
    have hbegun := (stopped_some_eq_false_iff world).mpr hlt
    rcases Nat.lt_or_ge (attemptDone c before m).time stop with hin | hover
    · have hinTime := (stopped_some_eq_false_iff world).mpr hin
      by_cases ho : IsRetried ((c.attempt before).outcome (world (attemptDone c before m).time))
      · obtain ⟨e, heq, he⟩ := ho
        exact connect_left_of_failed ⟨hbegun, hinTime, heq⟩ he
          fun hs => ih _ (Nat.le_of_lt hs) (.inr hs)
      · -- the attempt is the last one, with the stop and without
        rw [connect_of_last (completes_none world c before m) ho,
          connect_of_last ⟨hbegun, hinTime, rfl⟩ ho]
        exact Passage.isLeftOf_self (by rwa [time_lastAttempt])
    · -- the stop comes during the attempt
      obtain ⟨hend, rest, heq, hrest⟩ := exists_connect_none w world position c tries before m
      rw [connect_of_cutOff hbegun ((stopped_some_iff world).mpr hover)]
      exact .of_append (Nat.le_trans hover hend) heq (by simpa using hlt)
        (fun a ha => Nat.le_trans hover (hrest a ha)) rfl

/-- What is left of connecting backends one after the other. -/
theorem connectAll_left (hm : m.time ≤ stop) (hcs : cs ≠ [] ∨ m.time < stop) (htries : 0 < tries) :
    (w.connectAll ⟨none, world⟩ tries cs m).IsLeftOf stop
      (w.connectAll ⟨some stop, world⟩ tries cs m) := by
  induction cs generalizing m with
  | nil => exact Passage.isLeftOf_self (hcs.resolve_left (fun h => h rfl))
  | cons c cs ih =>
    obtain ⟨c, position⟩ := c
    have hleft := connect_left w world position c 0 hm (.inl htries)
    have horderly := (connect_connects w ⟨none, world⟩ position c tries 0 m (.inr rfl)).isOrderly
    rw [Worker.connectAll, Worker.connectAll]
    dsimp only
    set whole := w.connect ⟨none, world⟩ position c tries 0 m
    rcases Nat.lt_or_ge whole.ending.time stop with hlt | hge
    · -- the backend is done with before the stop
      rw [hleft.of_lt hlt]
      cases hend : whole.ending with
      | reached m' =>
        rw [hend] at hlt horderly
        refine (ih (Nat.le_of_lt hlt) (.inr hlt)).prepend (fun a ha => ?_) whole.clients
        exact Nat.lt_of_le_of_lt (horderly.le_end m' rfl a ha) hlt
      | stopped m' | broken m' | pending time => exact Passage.isLeftOf_self hlt
    · -- the stop comes while it is connected
      have hcut := hleft.of_le hge
      obtain ⟨m', hstopped, -⟩ := hcut.ending
      rw [hstopped]
      cases hend : whole.ending with
      | reached m =>
        rw [hend] at hge
        obtain ⟨hrest, hrestEnd⟩ := le_connectAll_none w world htries cs m
        exact hcut.extend (fun a ha => Nat.le_trans hge (hrest a ha)) (Nat.le_trans hge hrestEnd) _
      | stopped | broken | pending => exact hleft

/-! ## The life of a worker that is asked to stop -/

/-- A worker whose connecting is cut off takes its leave at once. -/
theorem life_of_stopped {cut : Passage}
    (hcut : w.connectAll s (w.triesWithin horizon) w.connectors.zipIdx {} = cut)
    (hend : cut.ending = .stopped m) :
    w.life s horizon = { cut with
      entries := announced w :: (cut.entries ++ w.farewell ⟨cut.clients⟩ m) } := by
  have hafter : w.afterConnecting s horizon cut = cut := by
    rw [Worker.afterConnecting, hend]
  rw [Worker.life, hcut]
  rw [hafter, conclude_eq, hend]
  rfl

theorem begins_of_isConnecting {d : Deed} (h : d.isConnecting position) (hd : d.begins) :
    ∃ name, d = .attempt position name := by
  cases d <;> simp_all [Deed.isConnecting, Deed.begins]

/-- A worker that is asked to stop while it connects its backends takes its leave at that time.
    Until then it has done what it would have done anyway; it begins no other attempt, does not have
    the resource built and does not watch it, and it releases the clients that it has obtained by
    then. This is all of its life, however long it is told, and it does not depend on what the
    worker notices first at a tie. -/
theorem Supervisor.worker_leaves_at_stop (s : Supervisor) (job : Job) (position : Nat)
    (world : Nat → World) {stop horizon : Nat}
    (h : stop ≤ ((s.worker job position).connecting world horizon).ending.time) :
    let w := s.worker job position
    let before := entriesBefore stop (w.connecting world horizon).entries
    let life := w.life ⟨some stop, world⟩ horizon
    ∃ m, m.time = stop ∧ life.ending = .stopped m ∧
      life.clients.map Client.session = obtained before ∧
      life.entries = announced w :: (before ++ Worker.closings life.clients m ++
        [⟨m, .publish (w.event .resourceStopped)⟩,
          ⟨m, .publish ((w.event .backendsReleased).withReleased (obtained before).length)⟩]) ∧
      (∀ a ∈ life.entries, a.deed.begins →
        a.moment.time < stop ∧ ∃ i name, a.deed = .attempt i name) ∧
      (∀ horizon' ≥ horizon, w.life ⟨some stop, world⟩ horizon' = life) ∧
      ∀ picks, w.lifePicking picks ⟨some stop, world⟩ horizon = life := by
  intro w before life
  obtain ⟨env, file, hconnectors, -⟩ := s.connectors_worker job position
  have htries := triesWithin_pos w horizon
  have hcs : w.connectors.zipIdx ≠ [] := by simp [w, hconnectors]
  obtain ⟨hentries, m, hend, hm⟩ :=
    (connectAll_left (m := {}) (Nat.zero_le stop) (.inl hcs) htries).of_le h
  have hconnects := connectAll_connectsAll w ⟨some stop, world⟩ htries w.connectors.zipIdx {}
  set cut :=
    w.connectAll ⟨some stop, world⟩ (w.triesWithin horizon) w.connectors.zipIdx {} with hcut
  change cut.entries = before at hentries
  have hlife : life = { cut with
      entries := announced w :: (cut.entries ++ w.farewell ⟨cut.clients⟩ m) } :=
    life_of_stopped hcut.symm hend
  have hsessions : cut.clients.map Client.session = obtained before := by
    rw [← hconnects.obtained_eq, hentries]
  have hcount : (obtained before).length = cut.clients.length := by
    rw [← hsessions, List.length_map]
  refine ⟨m, hm, by rw [hlife, hend], by rw [hlife, hsessions], ?_, ?_, fun horizon' hle => ?_,
    fun picks => w.lifePicking_eq picks _ horizon⟩
  · rw [hlife, farewell_eq, hentries, hcount, List.append_assoc]
  · intro a ha hd
    rw [hlife] at ha
    rcases List.mem_cons.mp ha with rfl | ha
    · simp [announced, Deed.begins] at hd
    rcases List.mem_append.mp ha with ha | ha
    · obtain ⟨c, -, hc⟩ := hconnects.isConnecting a ha
      exact ⟨(stopped_some_eq_false_iff world).mp (hconnects.stopped_eq_false a ha),
        c.2, begins_of_isConnecting hc hd⟩
    · have hleave : a ∈ leave w cut.clients (.stopped m) := ha
      simp [Deed.begins_of_isLeaving (isLeaving_of_mem_leave hleave)] at hd
  · refine life_eq_of_told hle ?_
    change life.ending.told? = none
    rw [hlife, hend]
    rfl

/-- A job with two added backends, of which one is connected at once and the other never is. -/
def Job.halfway : Job where
  resource := {}
  added :=
    [.ofAttempts "near" []
        { outcome := fun _ => .connected { name := "near", lookup := .fixed [] } },
      .ofAttempts "far" [] { outcome := fun _ => .failed (.failed "far" "refused") }]

/-- A supervisor whose resources cannot be built. -/
def Supervisor.refusing : Supervisor := start {} (fun _ _ _ => .refused (.invalidTemplate "")) []

/-- The stop comes at the end of the first pause. -/
theorem Supervisor.worker_leaves_at_tie :
    2000 ≤ ((refusing.worker .halfway 0).connecting (fun _ => {}) 5000).ending.time ∧
    let life := (refusing.worker .halfway 0).life ⟨some 2000, fun _ => {}⟩ 5000
    ∃ m, m.time = 2000 ∧ life.ending = .stopped m ∧ life.clients.map Client.session = [2] ∧
      ∀ picks, (refusing.worker .halfway 0).lifePicking picks ⟨some 2000, fun _ => {}⟩ 5000 =
        life := by
  have h : 2000 ≤ ((refusing.worker .halfway 0).connecting (fun _ => {}) 5000).ending.time := by
    decide +kernel
  obtain ⟨m, hm, hend, hclients, -, -, -, hpicks⟩ :=
    worker_leaves_at_stop refusing .halfway 0 (fun _ => {}) h
  have hobtained : obtained (entriesBefore 2000
      ((refusing.worker .halfway 0).connecting (fun _ => {}) 5000).entries) = [2] := by
    decide +kernel
  exact ⟨h, m, hm, hend, hclients.trans hobtained, hpicks⟩

end Steward.Supervision
