import Steward.Proofs.Supervision.Connecting

/-!
# One attempt after the other

Connecting a backend is told attempt by attempt. When a worker is not asked to stop, an attempt
either fails and is repeated after the pause (`connect_of_failed`), or it is the last one
(`connect_of_last`). The stop can come before an attempt (`connect_of_asked`), during it
(`connect_of_cutOff`), or in the pause behind it (`connect_of_pausing`).
-/

namespace Steward.Supervision

open Backend (Client Connector ConnectError ConnectOutcome)

variable {w : Worker} {s : Surroundings} {c : Connector} {position tries before : Nat} {m : Moment}
  {p : Passage}

/-- An end of an attempt after which it is repeated. -/
def IsRetried (o : ConnectOutcome) : Prop := ∃ e, o = .failed e ∧ e.isRetryable = true

/-! ## Attempts that are cut off -/

/-- A worker that was asked to stop does not begin an attempt. -/
theorem connect_of_asked (hm : s.stopped m.time = true) :
    w.connect s position c (tries + 1) before m = { ending := .stopped m } := by
  rw [Worker.connect, if_pos hm]

/-- A worker that is asked to stop during an attempt does not wait for it. -/
theorem connect_of_cutOff (hm : s.stopped m.time = false)
    (hd : s.stopped (attemptDone c before m).time = true) :
    w.connect s position c (tries + 1) before m =
      { entries := [⟨m, .attempt position c.name⟩], ending := .stopped (s.stopMoment m) } := by
  unfold attemptDone at hd
  rw [Worker.connect, if_neg (by simp [hm])]
  dsimp only
  rw [if_pos hd]

/-- A worker that is asked to stop in the pause behind an attempt does not wait for its end. -/
theorem connect_of_pausing {e : ConnectError} (h : Completes s c before m (.failed e))
    (he : e.isRetryable = true)
    (hs : s.stopped ((attemptDone c before m).later w.retryDelay).time = true) :
    w.connect s position c (tries + 1) before m =
      { entries := failureEntries w position c before m e,
        ending := .stopped (s.stopMoment (attemptDone c before m)) } := by
  obtain ⟨begun, inTime, outcome⟩ := h
  unfold attemptDone at *
  cases e with
  | notConfigured => exact absurd he (by decide)
  | failed backend cause =>
    rw [Worker.connect]
    simp only [begun, inTime, outcome, hs, Bool.false_eq_true, if_false, if_true]
    rfl

/-! ## The last attempt -/

/-- What an attempt gives that ends in a way after which it is not repeated. -/
def lastAttempt (w : Worker) (position : Nat) (c : Connector) (before : Nat) (m : Moment) :
    ConnectOutcome → Passage
  | .connected client =>
    { entries := [⟨m, .attempt position c.name⟩, ⟨attemptDone c before m, .obtain position⟩,
        ⟨attemptDone c before m,
          .publish ((w.backendEvent .backendConnected c).withAttempt (before + 1))⟩]
      clients := [{ client with session := position }]
      ending := .reached (attemptDone c before m) }
  | .failed _ =>
    { entries := [⟨m, .attempt position c.name⟩,
        ⟨attemptDone c before m, .publish (w.backendEvent .backendSkipped c)⟩]
      ending := .reached (attemptDone c before m) }
  | .broken =>
    { entries := [⟨m, .attempt position c.name⟩], ending := .broken (attemptDone c before m) }

/-- Behind an attempt that is not repeated nothing more is told. -/
theorem connect_of_last {o : ConnectOutcome} (h : Completes s c before m o) (ho : ¬IsRetried o) :
    w.connect s position c (tries + 1) before m = lastAttempt w position c before m o := by
  obtain ⟨begun, inTime, outcome⟩ := h
  unfold attemptDone at inTime outcome
  rw [Worker.connect]
  simp only [begun, inTime, outcome, Bool.false_eq_true, if_false]
  rcases o with client | (_ | e) | _
  · rfl
  · rfl
  · exact absurd ⟨_, rfl, rfl⟩ ho
  · rfl

/-! ## Attempts before it -/

/-- An attempt that fails in time, with the pause behind it over in time, is repeated. -/
theorem connect_of_failed {e : ConnectError} (h : Completes s c before m (.failed e))
    (he : e.isRetryable = true)
    (hs : s.stopped ((attemptDone c before m).later w.retryDelay).time = false) :
    w.connect s position c (tries + 1) before m =
      let rest := w.connect s position c tries (before + 1)
        ((attemptDone c before m).later w.retryDelay)
      { rest with entries := failureEntries w position c before m e ++ rest.entries } := by
  obtain ⟨begun, inTime, outcome⟩ := h
  unfold attemptDone at *
  cases e with
  | notConfigured => exact absurd he (by decide)
  | failed backend cause =>
    rw [Worker.connect]
    simp only [begun, inTime, outcome, hs, Bool.false_eq_true, if_false]
    rfl

/-! ## Time -/

/-- The time of an end, or the time up to which a part is told. -/
def Ending.time : Ending → Nat
  | reached m => m.time
  | stopped m => m.time
  | broken m => m.time
  | pending time => time

/-- Connecting does not end before it begins. -/
theorem Connects.le_time (h : Connects w s position c before m p) : m.time ≤ p.ending.time := by
  induction h with
  | untold | asked => exact Nat.le_refl _
  | cutOff begun h => exact s.le_stopMoment begun h
  | connected | skipped | broken => exact time_le_attemptDone ..
  | @pausing before m e h he hs =>
    exact Nat.le_trans (time_le_attemptDone c before m) (s.le_stopMoment h.inTime hs)
  | @again before m e rest h he hs hrest ih =>
    have hle := time_le_attemptDone c before m
    rw [Moment.time_later] at ih
    exact Nat.le_trans (Nat.le_trans hle (Nat.le_add_right _ _)) ih

theorem ConnectsAll.le_time {cs : List (Connector × Nat)} (h : ConnectsAll w s cs m p) :
    m.time ≤ p.ending.time := by
  induction h with
  | done => exact Nat.le_refl _
  | next hfirst hend hrest ih =>
    have hle := hfirst.le_time
    rw [hend] at hle
    exact Nat.le_trans hle ih
  | last hfirst hend => exact hfirst.le_time

theorem time_lastAttempt (w : Worker) (position : Nat) (c : Connector) (before : Nat) (m : Moment)
    (o : ConnectOutcome) :
    (lastAttempt w position c before m o).ending.time = (attemptDone c before m).time := by
  cases o <;> rfl

/-! ## Without a stop -/

theorem completes_none (world : Nat → World) (c : Connector) (before : Nat) (m : Moment) :
    Completes ⟨none, world⟩ c before m
      ((c.attempt before).outcome (world (attemptDone c before m).time)) :=
  ⟨rfl, rfl, rfl⟩

/-- Connecting goes on from a moment: nothing of it comes before, and neither does its end. -/
theorem le_connect_none (w : Worker) (world : Nat → World) (position : Nat) (c : Connector)
    (tries before : Nat) (m : Moment) :
    (∀ a ∈ (w.connect ⟨none, world⟩ position c tries before m).entries,
      m.time ≤ a.moment.time) ∧
    m.time ≤ (w.connect ⟨none, world⟩ position c tries before m).ending.time :=
  have h := connect_connects w ⟨none, world⟩ position c tries before m (.inr rfl)
  ⟨h.isOrderly.start_le, h.le_time⟩

theorem le_connectAll_none (w : Worker) (world : Nat → World) (htries : 0 < tries)
    (cs : List (Connector × Nat)) (m : Moment) :
    (∀ a ∈ (w.connectAll ⟨none, world⟩ tries cs m).entries, m.time ≤ a.moment.time) ∧
    m.time ≤ (w.connectAll ⟨none, world⟩ tries cs m).ending.time :=
  have h := connectAll_connectsAll w ⟨none, world⟩ htries cs m
  ⟨h.isOrderly.start_le, h.le_time⟩

/-- Connecting a backend begins with an attempt, and all else comes when that is over. -/
theorem exists_connect_none (w : Worker) (world : Nat → World) (position : Nat) (c : Connector)
    (tries before : Nat) (m : Moment) :
    (attemptDone c before m).time ≤
        (w.connect ⟨none, world⟩ position c (tries + 1) before m).ending.time ∧
      ∃ rest, (w.connect ⟨none, world⟩ position c (tries + 1) before m).entries =
          [⟨m, .attempt position c.name⟩] ++ rest ∧
        ∀ a ∈ rest, (attemptDone c before m).time ≤ a.moment.time := by
  have hcompletes := completes_none world c before m
  by_cases ho : IsRetried ((c.attempt before).outcome (world (attemptDone c before m).time))
  · obtain ⟨e, heq, he⟩ := ho
    obtain ⟨hrest, hend⟩ := le_connect_none w world position c tries (before + 1)
      ((attemptDone c before m).later w.retryDelay)
    rw [Moment.time_later] at hrest hend
    rw [connect_of_failed (heq ▸ hcompletes) he rfl]
    refine ⟨Nat.le_trans (Nat.le_add_right _ _) hend,
      (w.failureEvents c (before + 1) e).map
        (fun event => ⟨attemptDone c before m, .publish event⟩) ++ _, rfl, ?_⟩
    refine List.forall_mem_append.mpr ⟨?_, fun a ha => ?_⟩
    · simp [Worker.failureEvents]
    · exact Nat.le_trans (Nat.le_add_right _ _) (hrest a ha)
  · rw [connect_of_last hcompletes ho, time_lastAttempt]
    refine ⟨Nat.le_refl _, ?_⟩
    rcases (c.attempt before).outcome (world (attemptDone c before m).time) with client | e | _
    · exact ⟨[_, _], rfl, by simp⟩
    · exact ⟨[_], rfl, by simp⟩
    · exact ⟨[], rfl, by simp⟩

end Steward.Supervision
