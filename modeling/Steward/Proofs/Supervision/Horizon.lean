import Steward.Proofs.Supervision.Life

/-!
# Lives that have an end

A life is told for a limited number of attempts on each backend, and for a limited time if its
monitor does not end. A life that comes to its end within these limits is the same for all greater
ones (`life_eq_of_told`). If there is a pause between attempts, enough of them are told for a life
that goes on to be told up to the horizon (`le_of_life_pending`), and for it to come to its end once
its worker was asked to stop (`life_told_of_pause`).
-/

namespace Steward.Supervision

open Backend (Client Connector)

variable {w : Worker} {s : Surroundings} {position tries tries' before horizon horizon' : Nat}
  {c : Connector} {m : Moment}

/-- Connecting a backend that has an end does not depend on how many attempts are told. -/
theorem connect_eq_of_told (hle : tries ≤ tries')
    (h : (w.connect s position c tries before m).ending.told? = none) :
    w.connect s position c tries' before m = w.connect s position c tries before m := by
  induction tries generalizing tries' before m with
  | zero => simp [Worker.connect, Ending.told?] at h
  | succ tries ih =>
    obtain ⟨tries', rfl⟩ : ∃ n, tries' = n + 1 := ⟨tries' - 1, by omega⟩
    rw [Worker.connect] at h
    rw [Worker.connect, Worker.connect]
    dsimp only at h ⊢
    by_cases hm : s.stopped m.time = true
    · simp only [if_pos hm]
    · simp only [if_neg hm] at h ⊢
      by_cases hd : s.stopped (Worker.attemptEnd m (c.attempt before).delay).time = true
      · simp only [if_pos hd]
      · simp only [if_neg hd] at h ⊢
        split at h <;> try rfl
        -- only a failed attempt is followed by another
        split at h
        · next hs => simp only [if_pos hs]
        · next hs =>
          simp only [if_neg hs]
          rw [ih (by omega) h]

/-- Connecting backends that has an end does not depend on how many attempts are told. -/
theorem connectAll_eq_of_told {cs : List (Connector × Nat)} (hle : tries ≤ tries')
    (h : (w.connectAll s tries cs m).ending.told? = none) :
    w.connectAll s tries' cs m = w.connectAll s tries cs m := by
  induction cs generalizing m with
  | nil => rfl
  | cons c cs ih =>
    obtain ⟨c, position⟩ := c
    rw [Worker.connectAll] at h
    dsimp only at h
    have hfirst : (w.connect s position c tries 0 m).ending.told? = none := by
      split at h
      · next m' hend => rw [hend]; rfl
      · exact h
    rw [Worker.connectAll, Worker.connectAll, connect_eq_of_told hle hfirst]
    dsimp only
    split at h
    · next m' hend => rw [ih h]
    · rfl

/-- Working on a resource that has an end does not depend on how long it is told. -/
theorem buildAndWatch_eq_of_told {clients : List Client}
    (h : (w.buildAndWatch s horizon clients m).ending.told? = none) :
    w.buildAndWatch s horizon' clients m = w.buildAndWatch s horizon clients m := by
  unfold Worker.buildAndWatch at h ⊢
  split
  · rfl
  · rfl
  · next monitor hbuilt =>
    rw [hbuilt] at h
    unfold Worker.watch at h ⊢
    dsimp only at h ⊢
    split
    · next hnone => simp [hnone, Ending.told?] at h
    · rfl

/-- A life ends as the work does, or as connecting does if there is no work. -/
theorem ending_life (w : Worker) (s : Surroundings) (horizon : Nat) :
    (w.life s horizon).ending = (w.afterConnecting s horizon
      (w.connectAll s (w.triesWithin horizon) w.connectors.zipIdx {})).ending := by
  unfold Worker.life
  dsimp only
  rw [conclude_eq]

/-- A life that has an end does not depend on how long it is told. -/
theorem life_eq_of_told (hle : horizon ≤ horizon') (h : (w.life s horizon).ending.told? = none) :
    w.life s horizon' = w.life s horizon := by
  have htries : w.triesWithin horizon ≤ w.triesWithin horizon' :=
    Nat.add_le_add_right (Nat.div_le_div_right hle) 2
  rw [ending_life] at h
  have hconnect : (w.connectAll s (w.triesWithin horizon) w.connectors.zipIdx {}).ending.told? =
      none := by
    unfold Worker.afterConnecting at h
    split at h
    · next m hend => rw [hend]; rfl
    · exact h
  have hafter : ∀ p, (w.afterConnecting s horizon p).ending.told? = none →
      w.afterConnecting s horizon' p = w.afterConnecting s horizon p := by
    intro p hp
    unfold Worker.afterConnecting at hp ⊢
    split
    · next m hend =>
      rw [hend] at hp
      rw [buildAndWatch_eq_of_told hp]
    · rfl
  unfold Worker.life
  dsimp only
  rw [connectAll_eq_of_told htries hconnect, hafter _ h]

/-! ## With a pause between attempts -/

/-- As long as attempts fail, each of them takes the pause at least. -/
theorem connect_pending {time : Nat}
    (h : (w.connect s position c tries before m).ending = .pending time) :
    m.time + tries * w.retryDelay ≤ time := by
  induction tries generalizing before m with
  | zero =>
    have htime : m.time = time := by simpa [Worker.connect] using h
    omega
  | succ tries ih =>
    rw [Worker.connect] at h
    dsimp only at h
    split at h
    · simp at h
    · split at h
      · simp at h
      · split at h
        · simp at h
        · simp at h
        · split at h
          · simp at h
          · -- the next attempt begins after the pause
            have hrest := ih h
            have hdone := time_le_attemptDone c before m
            rw [Moment.time_later] at hrest
            rw [attemptDone] at hdone
            rw [Nat.succ_mul]
            omega
        · simp at h

theorem connectAll_pending {cs : List (Connector × Nat)} {time : Nat}
    (h : (w.connectAll s tries cs m).ending = .pending time) : tries * w.retryDelay ≤ time := by
  induction cs generalizing m with
  | nil => simp [Worker.connectAll] at h
  | cons c cs ih =>
    obtain ⟨c, position⟩ := c
    rw [Worker.connectAll] at h
    dsimp only at h
    split at h
    · exact ih h
    · have hfirst := connect_pending h
      omega

theorem lt_triesWithin_mul (horizon : Nat) (hpause : 0 < w.retryDelay) :
    horizon < w.triesWithin horizon * w.retryDelay := by
  have hmax : max w.retryDelay 1 = w.retryDelay := Nat.max_eq_left hpause
  have hdiv := Nat.div_add_mod horizon w.retryDelay
  have hmod := Nat.mod_lt horizon hpause
  rw [Worker.triesWithin, hmax, Nat.add_mul, Nat.mul_comm _ w.retryDelay]
  omega

/-- Working on a resource without an end is told up to the horizon. -/
theorem buildAndWatch_pending {clients : List Client} {time : Nat}
    (h : (w.buildAndWatch s horizon clients m).ending = .pending time) : time = horizon := by
  unfold Worker.buildAndWatch at h
  split at h
  · exact absurd h (by simp)
  · exact absurd h (by simp)
  · unfold Worker.watch at h
    dsimp only at h
    split at h
    · exact (Ending.pending.inj h).symm
    · split at h
      · exact absurd h (by simp)
      · exact absurd h (by simp)

/-- With a pause between attempts, a life without an end is told up to the horizon. -/
theorem le_of_life_pending {time : Nat} (hpause : 0 < w.retryDelay)
    (h : (w.life s horizon).ending = .pending time) : horizon ≤ time := by
  rw [ending_life, Worker.afterConnecting] at h
  split at h
  · exact Nat.le_of_eq (buildAndWatch_pending h).symm
  · -- an attempt is repeated again and again
    have hpending := connectAll_pending h
    have henough := lt_triesWithin_mul horizon hpause
    omega

/-- With a pause between attempts, a life comes to its end once the worker was asked to stop. -/
theorem life_told_of_pause {stop : Nat} (hpause : 0 < w.retryDelay) (hw : w.connectors ≠ [])
    (hstop : s.stop = some stop) (hle : stop ≤ horizon) :
    (w.life s horizon).ending.told? = none := by
  obtain ⟨connecting, work, hphases⟩ := life_phases w s horizon
  cases hend : (w.life s horizon).ending with
  | reached m | stopped m | broken m => rfl
  | pending time =>
    -- a life without an end is not asked to stop in the time that is told
    have hbefore := hphases.stopped_eq_false_of_pending hw hend
    have hlt := s.stopped_eq_false_iff.mp hbefore stop hstop
    have htold := le_of_life_pending hpause hend
    omega

end Steward.Supervision
