import Steward.Proofs.Delivery.Flush

/-!
# How long somebody waits for a flush

Who asks for a flush is answered when his patience is over, at the latest, unless a request of
somebody else is waiting already. In that case his patience begins only when the dispatcher has
taken up that one.

Results:
* `catchUp_eq`, `of_requested_catchUp`: a request keeps waiting exactly as long as the dispatcher is
  flushing the lanes for somebody else.
* `awaitFlush_time_le_iff`: when the wait is over in time.
* `freeAt_le_of_complete`, `freeAt_le_of_requested`: behind a wait the dispatcher is free, unless
  it was busy before.
-/

namespace Steward.Delivery.Dispatcher

variable {d : Dispatcher} {time patience : Nat}

/-- While the dispatcher is busy nothing happens, and a request waits. -/
theorem catchUp_eq (ht : time < d.freeAt) : d.catchUp time = d := by
  have hserve : ¬(d.requested ∧ d.freeAt ≤ time) := fun h => Nat.not_le_of_lt ht h.2
  have hfree : ¬d.freeAt < time := Nat.not_lt_of_lt ht
  unfold catchUp
  dsimp only
  rw [if_neg hserve, if_neg hfree]

/-- A request that waits at a time has waited before, and the dispatcher is busy. -/
theorem of_requested_catchUp (h : (d.catchUp time).requested = true) :
    d.requested = true ∧ time < d.freeAt := by
  have hforward : ∀ e : Dispatcher, (if e.freeAt < time then
      { e.forward with lanes := e.forward.lanes.advance time } else e).requested = e.requested := by
    intro e
    split
    · exact requested_forward
    · rfl
  unfold catchUp at h
  dsimp only at h
  rw [hforward] at h
  split at h
  · exact absurd h (by simp)
  · next hserve =>
    refine ⟨h, Nat.lt_of_not_le fun hle => hserve ⟨h, hle⟩⟩

/-- Without a request the time passes. -/
theorem catchUp_of_not_requested (h : d.requested = false) (time : Nat) :
    (d.catchUp time).requested = false ∧ (d.catchUp time).freeAt = max d.freeAt time := by
  have hserve : ¬(d.requested ∧ d.freeAt ≤ time) := fun hand => by simp [h] at hand
  unfold catchUp
  dsimp only
  rw [if_neg hserve]
  by_cases hlt : d.freeAt < time
  · rw [if_pos hlt]
    refine ⟨requested_forward.trans h, ?_⟩
    show max d.forward.freeAt time = max d.freeAt time
    rw [freeAt_forward]
  · rw [if_neg hlt]
    exact ⟨h, (Nat.max_eq_left (Nat.le_of_not_lt hlt)).symm⟩

/-- Who asks while no other request waits is answered in time. -/
theorem ask_time_le (d : Dispatcher) (time patience : Nat) :
    (d.ask time patience).1.time ≤ time + patience := by
  unfold ask
  dsimp only
  split
  · split
    · next hdone => exact Nat.le_of_lt hdone
    · exact Nat.le_refl _
  · exact Nat.le_refl _

/-- Who asks from the moment on at which the dispatcher has taken up another request is answered
    when both are carried out, or when his patience is over. -/
theorem ask_serve_time (d : Dispatcher) (patience : Nat) :
    (d.serve.ask d.freeAt patience).1.time =
      if d.serve.freeAt < d.freeAt + patience then d.serve.freeAt else d.freeAt + patience := by
  have hle := d.freeAt_le_freeAt_serve
  unfold ask
  dsimp only
  rw [Nat.max_eq_left hle]
  by_cases hdone : d.serve.freeAt < d.freeAt + patience
  · rw [if_pos hdone, freeAt_serve_serve, if_pos hdone, if_pos hdone]
  · rw [if_neg hdone, if_neg hdone]

/-- The wait for a flush is over in time exactly if no request of somebody else waits, or if the
    dispatcher has carried out that one in time as well. -/
theorem awaitFlush_time_le_iff (d : Dispatcher) (time patience : Nat) :
    (d.awaitFlush time patience).1.time ≤ time + patience ↔
      (d.requested = true → time < d.freeAt → d.serve.freeAt ≤ time + patience) := by
  unfold awaitFlush
  dsimp only
  by_cases hwait : (d.catchUp time).requested = true
  · obtain ⟨hd, ht⟩ := of_requested_catchUp hwait
    rw [if_pos hwait, catchUp_eq ht, ask_serve_time]
    constructor
    · intro hle _ _
      split at hle
      · exact hle
      · omega
    · intro hall
      have hle := hall hd ht
      have hdone : d.serve.freeAt < d.freeAt + patience := by omega
      rwa [if_pos hdone]
  · rw [if_neg hwait]
    refine iff_of_true (ask_time_le _ time patience) fun hd ht => ?_
    rw [catchUp_eq ht] at hwait
    exact absurd hd hwait

theorem of_ask_complete (h : (d.ask time patience).1.complete = true) :
    (d.ask time patience).2.requested = false ∧
      (d.ask time patience).2.freeAt ≤ (d.ask time patience).1.time := by
  unfold ask at h ⊢
  dsimp only at h ⊢
  split at h
  · split at h
    · next hbegins hdone =>
      rw [if_pos hbegins, if_pos hdone]
      exact ⟨requested_serve, Nat.le_refl _⟩
    · exact absurd h (by simp)
  · exact absurd h (by simp)

/-- When a flush was complete the dispatcher is free, and no request is left. -/
theorem freeAt_le_of_complete (h : (d.awaitFlush time patience).1.complete = true) :
    (d.awaitFlush time patience).2.requested = false ∧
      (d.awaitFlush time patience).2.freeAt ≤ (d.awaitFlush time patience).1.time := by
  unfold awaitFlush at h ⊢
  dsimp only at h ⊢
  by_cases hwait : (d.catchUp time).requested = true
  · rw [if_pos hwait] at h ⊢
    exact of_ask_complete h
  · rw [if_neg hwait] at h ⊢
    exact of_ask_complete h

/-- If a request is left with a dispatcher that was free, it is free in the end as well. -/
theorem freeAt_le_of_requested (hd : d.requested = false) (hfree : d.freeAt ≤ time)
    (h : (d.awaitFlush time patience).2.requested = true) :
    (d.awaitFlush time patience).2.freeAt ≤ (d.awaitFlush time patience).1.time := by
  obtain ⟨hrequested, hmax⟩ := catchUp_of_not_requested hd time
  rw [Nat.max_eq_right hfree] at hmax
  unfold awaitFlush at h ⊢
  dsimp only at h ⊢
  rw [if_neg (by simp [hrequested])] at h ⊢
  unfold ask at h ⊢
  dsimp only at h ⊢
  split at h
  · split at h <;> exact absurd h (by simp)
  · next hlate =>
    rw [if_neg hlate]
    show (d.catchUp time).freeAt ≤ time + patience
    omega

end Steward.Delivery.Dispatcher
