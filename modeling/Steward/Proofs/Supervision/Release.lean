import Steward.Proofs.Supervision.Life

/-!
# Every session is released once

A worker that comes to its end has closed the sessions that completed attempts have handed over to
it, each of them once and in the order in which it obtained them, and no other. It does so behind
its monitor and behind all connecting, whichever way its life ends. A worker that goes on has closed
none.

Results:
* `closed_leave`: releasing the clients and giving up what is left closes each of them once, and so
  does giving up all of them.
* `life_closes_handed_over`: the sessions that a worker closes.
-/

namespace Steward.Supervision

open Backend (Client)

variable {w : Worker} {s : Surroundings} {clients : List Client} {m : Moment} {e : Ending}
  {life connecting work : Passage}

/-! ## Taking leave closes what is held -/

theorem closed_closings (clients : List Client) (m : Moment) :
    closed (Worker.closings clients m) = clients.map Client.session := by
  induction clients with
  | nil => rfl
  | cons c rest ih =>
    rw [Worker.closings, List.map_cons, closed_cons, List.map_cons, ← ih]
    rfl

/-- Who takes leave closes the sessions of its clients, each once and in order; who goes on closes
    none. -/
theorem closed_leave (w : Worker) (clients : List Client) (e : Ending) :
    closed (leave w clients e) = if e.told? = none then clients.map Client.session else [] := by
  cases e with
  | reached m | stopped m =>
    rw [leave, farewell_eq, closed_append, closed_closings]
    simp [closed, Deed.closed?, Ending.told?]
  | broken m =>
    rw [leave, Worker.collapse, closed_append, closed_closings]
    simp [closed, Deed.closed?, Ending.told?, Backend.ClientSet.abandon, Backend.ClientSet.release]
  | pending => simp [leave, Ending.told?]

/-! ## The monitor is gone by then -/

theorem isWatching_of_areReadings {readings : List Entry} (hread : AreReadings readings)
    (b : Bool) :
    isWatching b readings = b := by
  refine isWatching_eq fun a ha b => ?_
  obtain ⟨answers, hd⟩ := hread a ha
  rw [hd]
  rfl

/-- A monitor does not outlast the work, unless the work goes on for longer than it is told. -/
theorem Works.isWatching_eq_false (h : Works w s clients e work) (hend : work.ending.told? = none) :
    isWatching false work.entries = false := by
  cases h with
  | idle | refused | broken => rfl
  | endless => simp [Ending.told?] at hend
  | watched hread hord | collapsed hread hord =>
    simp [watchEntries, isWatching_cons, Deed.watching, isWatching_of_areReadings hread]

/-! ## The sessions of a life -/

theorem Phases.obtained_eq (h : Phases w s life connecting work) :
    obtained life.entries = obtained connecting.entries := by
  have hwork : obtained work.entries = [] :=
    obtained_eq_nil fun a ha => Deed.obtained?_of_isWorking (h.works.isWorking a ha)
  have hleave : obtained (leave w connecting.clients work.ending) = [] :=
    obtained_eq_nil fun a ha => Deed.obtained?_of_isLeaving (isLeaving_of_mem_leave ha)
  rw [h.entries, obtained_cons, obtained_append, obtained_append, hwork, hleave]
  simp [announced, Deed.obtained?]

theorem Phases.attempts_eq (h : Phases w s life connecting work) (position : Nat) :
    attempts position life.entries = attempts position connecting.entries := by
  have hwork : attempts position work.entries = [] := attempts_eq_nil fun a ha => by
    rw [Deed.attempted?_of_isWorking (h.works.isWorking a ha)]
    simp
  have hleave : attempts position (leave w connecting.clients work.ending) = [] :=
    attempts_eq_nil fun a ha => by
      rw [Deed.attempted?_of_isLeaving (isLeaving_of_mem_leave ha)]
      simp
  rw [h.entries, attempts_cons, attempts_append, attempts_append, hwork, hleave]
  simp [announced, Deed.attempted?]

/-- Nothing is closed before the leave. -/
theorem Phases.closed_eq_nil (h : Phases w s life connecting work) :
    closed (announced w :: (connecting.entries ++ work.entries)) = [] := by
  refine Supervision.closed_eq_nil fun a ha => ?_
  rw [List.mem_cons, List.mem_append] at ha
  rcases ha with rfl | ha | ha
  · rfl
  · obtain ⟨c, -, hc⟩ := h.connects.isConnecting a ha
    exact Deed.closed?_of_isConnecting hc
  · exact Deed.closed?_of_isWorking (h.works.isWorking a ha)

theorem Phases.closed_eq (h : Phases w s life connecting work) :
    closed life.entries = if life.ending.told? = none then obtained life.entries else [] := by
  have hbefore := h.closed_eq_nil
  rw [h.obtained_eq, h.connects.obtained_eq, h.ending, ← closed_leave w, h.entries,
    ← List.cons_append, closed_append, hbefore, List.nil_append]

/-- The session of the backend at a position was handed over to the worker: an attempt on it was
    completed and opened a session. -/
def IsHandedOver (w : Worker) (s : Surroundings) (es : List Entry) (position : Nat) : Prop :=
  ∃ c k m, w.connectors[position]? = some c ∧ (attempts position es)[k]? = some m ∧ Grants s c k m

theorem Phases.mem_obtained_iff (h : Phases w s life connecting work) (position : Nat) :
    position ∈ obtained life.entries ↔ IsHandedOver w s life.entries position := by
  have hsnd : w.connectors.zipIdx.map Prod.snd = List.range w.connectors.length := by
    rw [List.zipIdx_map_snd, List.range_eq_range']
  have hnodup : (w.connectors.zipIdx.map Prod.snd).Nodup := hsnd ▸ List.nodup_range
  unfold IsHandedOver
  rw [h.obtained_eq, h.attempts_eq]
  constructor
  · intro hm
    have hlt : position < w.connectors.length := by
      have := h.connects.obtained_sublist.subset hm
      rwa [hsnd, List.mem_range] at this
    have hc : (w.connectors[position], position) ∈ w.connectors.zipIdx := by
      simp [List.mem_zipIdx_iff_getElem?]
    obtain ⟨k, m, hk, hg⟩ := (h.connects.mem_obtained_iff hnodup hc).mp hm
    exact ⟨_, k, m, List.getElem?_eq_getElem hlt, hk, hg⟩
  · rintro ⟨c, k, m, hc, hk, hg⟩
    have hc : (c, position) ∈ w.connectors.zipIdx := by
      rwa [List.mem_zipIdx_iff_getElem?]
    exact (h.connects.mem_obtained_iff hnodup hc).mpr ⟨k, m, hk, hg⟩

/-- Positions are obtained in ascending order. -/
theorem Phases.pairwise_obtained (h : Phases w s life connecting work) :
    (obtained life.entries).Pairwise (· < ·) := by
  have hsub := h.connects.obtained_sublist
  rw [List.zipIdx_map_snd] at hsub
  rw [h.obtained_eq]
  exact List.Pairwise.sublist hsub List.pairwise_lt_range'

/-- A session is closed while the worker takes its leave, behind all connecting and all work. -/
theorem Phases.split_of_closed (h : Phases w s life connecting work) {pre post : List Entry}
    {a : Entry} (hsplit : life.entries = pre ++ a :: post) (ha : a.deed.closed?.isSome) :
    ∃ first, pre = announced w :: (connecting.entries ++ work.entries) ++ first ∧
      leave w connecting.clients work.ending = first ++ a :: post := by
  rw [h.entries, ← List.cons_append] at hsplit
  rcases List.append_eq_append_iff.mp hsplit with ⟨first, hpre, hleave⟩ | ⟨rest, hbefore, hrest⟩
  · exact ⟨first, hpre, hleave⟩
  · cases rest with
    | nil => exact ⟨[], by simpa using hbefore.symm, by simpa using hrest.symm⟩
    | cons b rest =>
      have hb : b = a := by simpa using (List.cons.inj hrest).1.symm
      have hno := h.closed_eq_nil
      rw [hbefore, closed_append, closed_cons, hb] at hno
      cases hd : a.deed.closed? <;> simp_all

/-- When a session is closed, all sessions were obtained and the monitor is not at work. -/
theorem Phases.isWatching_eq_false (h : Phases w s life connecting work) {pre post : List Entry}
    {a : Entry} (hsplit : life.entries = pre ++ a :: post) (ha : a.deed.closed?.isSome) :
    obtained pre = obtained life.entries ∧ isWatching false pre = false := by
  obtain ⟨first, hpre, hleave⟩ := h.split_of_closed hsplit ha
  have htold : work.ending.told? = none := by
    cases hend : work.ending <;> simp_all [Ending.told?, leave]
  have hleaving : ∀ b ∈ first, b.deed.isLeaving := fun b hb =>
    isLeaving_of_mem_leave (hleave ▸ List.mem_append_left _ hb)
  constructor
  · have hfirst : obtained first = [] :=
      obtained_eq_nil fun b hb => Deed.obtained?_of_isLeaving (hleaving b hb)
    have hrest : obtained (a :: post) = [] :=
      obtained_eq_nil fun b hb =>
        Deed.obtained?_of_isLeaving (isLeaving_of_mem_leave (hleave ▸ List.mem_append_right _ hb))
    rw [hsplit, obtained_append, hrest, List.append_nil]
  · have hconnecting : isWatching false connecting.entries = false :=
      isWatching_eq fun b hb => by
        obtain ⟨c, -, hc⟩ := h.connects.isConnecting b hb
        exact Deed.watching_of_isConnecting hc
    rw [hpre, isWatching_append, isWatching_cons, isWatching_append]
    rw [show (announced w).deed.watching false = false from rfl, hconnecting,
      h.works.isWatching_eq_false htold]
    exact isWatching_eq fun b hb => Deed.watching_of_isLeaving (hleaving b hb)

/-- **Release exactly once.** However a worker fares, and whenever it is asked to stop: when its
    life has come to an end it has closed the sessions that were handed over to it by a completed
    attempt, each once, in the order in which it obtained them, and no other session. While its life
    goes on it has closed none. At the time at which it closes one it has obtained all of them, and
    its monitor is not at work. -/
theorem life_closes_handed_over (w : Worker) (s : Surroundings) (horizon : Nat) :
    let life := w.life s horizon
    (∀ position, position ∈ obtained life.entries ↔ IsHandedOver w s life.entries position) ∧
      (obtained life.entries).Pairwise (· < ·) ∧
      (life.ending.told? = none → closed life.entries = obtained life.entries) ∧
      (life.ending.told? ≠ none → closed life.entries = []) ∧
      ∀ pre a post, life.entries = pre ++ a :: post → a.deed.closed?.isSome →
        obtained pre = obtained life.entries ∧ isWatching false pre = false := by
  intro life
  obtain ⟨connecting, work, h⟩ := life_phases w s horizon
  have hclosed := h.closed_eq
  refine ⟨h.mem_obtained_iff, h.pairwise_obtained, ?_, ?_, ?_⟩
  · intro hend
    rw [hclosed, if_pos hend]
  · intro hend
    rw [hclosed, if_neg hend]
  · intro pre a post hsplit ha
    exact h.isWatching_eq_false hsplit ha

end Steward.Supervision
