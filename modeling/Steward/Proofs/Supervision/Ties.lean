import Steward.Proofs.Supervision.Life

/-!
# Ties between a pause and the stop

When the pause behind a failed attempt is over at the time at which a worker is asked to stop, it
may take notice of either first. If it notices that the pause is over, it goes on with the next
attempt and finds, before it begins that, that it was asked to stop. So it makes no difference.

`Worker.lifePicking` is the life of a worker to which `picks` says what it notices first at such a
tie.

Results:
* `Worker.lifePicking_eq`: the life of a worker does not depend on what it notices first.
-/

namespace Steward.Supervision

open Backend (Connector)

/-- True if a worker that pauses until a time notices that it is asked to stop; at a tie this is so
    if it does not pick the end of the pause. -/
def Surroundings.noticesStop (s : Surroundings) (pick : Bool) (time : Nat) : Bool :=
  s.stopped time && !(s.stop == some time && pick)

namespace Worker

/-- Connects a backend from a moment on, as `connect` does, but at a tie behind the attempt with a
    number goes on as `picks` says. -/
def connectPicking (w : Worker) (picks : Nat → Bool) (s : Surroundings) (position : Nat)
    (c : Connector) : (tries : Nat) → (before : Nat) → Moment → Passage
  | 0, _, m => { ending := if s.stopped m.time then .stopped m else .pending m.time }
  | tries + 1, before, m =>
    if s.stopped m.time then { ending := .stopped m }
    else
      let attempt := c.attempt before
      let begun : Entry := ⟨m, .attempt position c.name⟩
      let done := attemptEnd m attempt.delay
      if s.stopped done.time then { entries := [begun], ending := .stopped (s.stopMoment m) }
      else
        match attempt.outcome (s.world done.time) with
        | .connected client =>
          let connected := (w.backendEvent .backendConnected c).withAttempt (before + 1)
          { entries := [begun, ⟨done, .obtain position⟩, ⟨done, .publish connected⟩]
            clients := [{ client with session := position }]
            ending := .reached done }
        | .failed .notConfigured =>
          { entries := [begun, ⟨done, .publish (w.backendEvent .backendSkipped c)⟩]
            ending := .reached done }
        | .failed e =>
          let failed := (w.failureEvents c (before + 1) e).map fun e => Entry.mk done (.publish e)
          let again := done.later w.retryDelay
          if s.noticesStop (picks before) again.time then
            { entries := begun :: failed, ending := .stopped (s.stopMoment done) }
          else
            let rest := w.connectPicking picks s position c tries (before + 1) again
            { rest with entries := begun :: failed ++ rest.entries }
        | .broken => { entries := [begun], ending := .broken done }

/-- Connects backends at given positions one after the other. -/
def connectAllPicking (w : Worker) (picks : Nat → Nat → Bool) (s : Surroundings) (tries : Nat) :
    List (Connector × Nat) → Moment → Passage
  | [], m => { ending := .reached m }
  | (c, position) :: others, m =>
    let first := w.connectPicking (picks position) s position c tries 0 m
    match first.ending with
    | .reached m =>
      let rest := w.connectAllPicking picks s tries others m
      { entries := first.entries ++ rest.entries
        clients := first.clients ++ rest.clients
        ending := rest.ending }
    | _ => first

/-- The life of a worker that goes on as `picks` says at a tie behind an attempt on the backend at a
    position. -/
def lifePicking (w : Worker) (picks : Nat → Nat → Bool) (s : Surroundings) (horizon : Nat) :
    Passage :=
  let start : Entry := ⟨{}, .publish (w.event .resourceStarting)⟩
  let connecting := w.connectAllPicking picks s (w.triesWithin horizon) w.connectors.zipIdx {}
  let all := w.conclude (w.afterConnecting s horizon connecting)
  { all with entries := start :: all.entries }

variable {w : Worker} {s : Surroundings} {position tries before : Nat} {c : Connector} {m : Moment}

/-- Who goes on notices that it was asked to stop before it does anything. -/
theorem connectPicking_of_stopped (picks : Nat → Bool) (h : s.stopped m.time = true) :
    w.connectPicking picks s position c tries before m = { ending := .stopped m } := by
  cases tries with
  | zero => rw [connectPicking, if_pos h]
  | succ tries => rw [connectPicking, if_pos h]

/-- At a tie the pause is over at the moment at which a worker hears of the stop. -/
theorem later_eq_stopMoment {delay : Nat} (hm : s.stopped m.time = false)
    (htie : s.stop = some (m.later delay).time) : m.later delay = s.stopMoment m := by
  rw [Moment.time_later] at htie
  -- a tie takes a pause
  have hlt : m.time < m.time + delay := s.stopped_eq_false_iff.mp hm _ htie
  have hne : delay ≠ 0 := by omega
  rw [Surroundings.stopMoment, htie, Moment.later, if_neg hne]
  rfl

theorem connectPicking_eq (w : Worker) (picks : Nat → Bool) (s : Surroundings) (position : Nat)
    (c : Connector) (h : 0 < tries ∨ s.stopped m.time = false) :
    w.connectPicking picks s position c tries before m = w.connect s position c tries before m := by
  induction tries generalizing before m with
  | zero =>
    have hm : s.stopped m.time = false := h.resolve_left (Nat.lt_irrefl 0)
    simp [connectPicking, connect, hm]
  | succ tries ih =>
    rw [connectPicking, connect]
    dsimp only
    by_cases hm : s.stopped m.time = true
    · rw [if_pos hm, if_pos hm]
    · rw [if_neg hm, if_neg hm]
      by_cases hd : s.stopped (attemptEnd m (c.attempt before).delay).time = true
      · rw [if_pos hd, if_pos hd]
      · rw [if_neg hd, if_neg hd]
        set done := attemptEnd m (c.attempt before).delay
        -- only a failed attempt that can be repeated is followed by a pause
        rcases (c.attempt before).outcome (s.world done.time) with client | (_ | e) | _ <;> try rfl
        dsimp only
        set again := done.later w.retryDelay
        by_cases hs : s.stopped again.time = true
        · by_cases hnotices : s.noticesStop (picks before) again.time = true
          · rw [if_pos hnotices, if_pos hs]
          · -- the end of the pause is picked at a tie
            have htie : s.stop = some again.time := by
              simp only [Surroundings.noticesStop, hs, Bool.true_and, Bool.not_eq_true',
                Bool.not_eq_false, Bool.and_eq_true, beq_iff_eq] at hnotices
              exact hnotices.1
            have hmoment : again = s.stopMoment done :=
              later_eq_stopMoment (eq_false_of_ne_true hd) htie
            rw [if_neg hnotices, if_pos hs, connectPicking_of_stopped picks hs, hmoment]
            simp
        · have hnotices : ¬s.noticesStop (picks before) again.time = true := by
            simp [Surroundings.noticesStop, hs]
          rw [if_neg hnotices, if_neg hs, ih (.inr (eq_false_of_ne_true hs))]

theorem connectAllPicking_eq (w : Worker) (picks : Nat → Nat → Bool) (s : Surroundings)
    (h : 0 < tries) (cs : List (Connector × Nat)) (m : Moment) :
    w.connectAllPicking picks s tries cs m = w.connectAll s tries cs m := by
  induction cs generalizing m with
  | nil => rfl
  | cons c cs ih =>
    obtain ⟨c, position⟩ := c
    rw [connectAllPicking, connectAll, connectPicking_eq w _ s position c (.inl h)]
    dsimp only
    cases (w.connect s position c tries 0 m).ending <;> simp only [ih]

/-- The life of a worker does not depend on what it notices first at a tie. -/
theorem lifePicking_eq (w : Worker) (picks : Nat → Nat → Bool) (s : Surroundings) (horizon : Nat) :
    w.lifePicking picks s horizon = w.life s horizon := by
  rw [lifePicking, life, connectAllPicking_eq w picks s (triesWithin_pos w horizon)]

end Worker

end Steward.Supervision
