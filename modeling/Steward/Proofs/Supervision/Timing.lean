import Steward.Supervision.Worker

/-!
# Time in a life

`IsOrderly` says that time does not go backwards in some entries, and between which times they lie;
entries that follow one another keep it (`IsOrderly.append`). `Ending.Agrees` says how the end of a
part of a life goes with the time at which the worker is asked to stop.
-/

namespace Steward.Supervision

/-! ## Moments and the stop -/

variable {s : Surroundings} {m : Moment}

@[simp] theorem Moment.time_awaken (m : Moment) (time : Nat) : (m.awaken time).time = time := rfl

@[simp] theorem Moment.time_later (m : Moment) (ms : Nat) : (m.later ms).time = m.time + ms := by
  unfold Moment.later
  split
  · next h => rw [h, Nat.add_zero]
  · rfl

theorem Surroundings.stopped_iff {time : Nat} :
    s.stopped time = true ↔ ∃ stop, s.stop = some stop ∧ stop ≤ time := by
  cases h : s.stop <;> simp [Surroundings.stopped, h]

theorem Surroundings.stopped_eq_false_iff {time : Nat} :
    s.stopped time = false ↔ ∀ stop, s.stop = some stop → time < stop := by
  cases h : s.stop <;> simp [Surroundings.stopped, h]

/-- Who hears of the stop between two times hears of it in time. -/
theorem Surroundings.stop_eq_stopMoment {time : Nat} (h : s.stopped time = true) :
    s.stop = some (s.stopMoment m).time := by
  obtain ⟨stop, hs, -⟩ := s.stopped_iff.mp h
  simp [Surroundings.stopMoment, hs]

theorem Surroundings.le_stopMoment {time : Nat} (hm : s.stopped m.time = false)
    (h : s.stopped time = true) : m.time ≤ (s.stopMoment m).time := by
  have hstop : s.stop = some (s.stopMoment m).time := s.stop_eq_stopMoment h
  exact Nat.le_of_lt (s.stopped_eq_false_iff.mp hm _ hstop)

/-! ## The end of a part -/

/-- The moment at which a part of a life ends, if it is told to its end. -/
def Ending.moment? : Ending → Option Moment
  | reached m => some m
  | stopped m => some m
  | broken m => some m
  | pending _ => none

/-- How a part of a life ends goes with when the worker is asked to stop: it ends at that time if
    the worker is asked to, and before it otherwise. -/
def Ending.Agrees (s : Surroundings) : Ending → Prop
  | reached m => s.stopped m.time = false
  | stopped m => s.stop = some m.time
  | broken m => s.stopped m.time = false
  | pending time => s.stopped time = false

/-! ## Order -/

/-- Time does not go backwards in some entries from `start` on, the last moment of which is `m?`. -/
structure IsOrderly (start : Nat) (es : List Entry) (m? : Option Moment) : Prop where
  sorted : es.Pairwise fun a b => a.moment.time ≤ b.moment.time
  start_le : ∀ e ∈ es, start ≤ e.moment.time
  start_le_end : ∀ m ∈ m?, start ≤ m.time
  le_end : ∀ m ∈ m?, ∀ e ∈ es, e.moment.time ≤ m.time

theorem isOrderly_nil {start : Nat} {m? : Option Moment} (h : ∀ m ∈ m?, start ≤ m.time) :
    IsOrderly start [] m? :=
  ⟨List.Pairwise.nil, by simp, h, by simp⟩

theorem IsOrderly.mono {start start' : Nat} {es : List Entry} {m? : Option Moment}
    (h : IsOrderly start' es m?) (hle : start ≤ start') : IsOrderly start es m? where
  sorted := h.sorted
  start_le e he := Nat.le_trans hle (h.start_le e he)
  start_le_end m hm := Nat.le_trans hle (h.start_le_end m hm)
  le_end := h.le_end

/-- Entries behind entries that end before them. -/
theorem IsOrderly.append {start : Nat} {es fs : List Entry} {m : Moment} {m? : Option Moment}
    (h : IsOrderly start es (some m)) (h' : IsOrderly m.time fs m?) :
    IsOrderly start (es ++ fs) m? where
  sorted := by
    refine List.pairwise_append.mpr ⟨h.sorted, h'.sorted, fun a ha b hb => ?_⟩
    exact Nat.le_trans (h.le_end m rfl a ha) (h'.start_le b hb)
  start_le e he := by
    rcases List.mem_append.mp he with he | he
    · exact h.start_le e he
    · exact Nat.le_trans (h.start_le_end m rfl) (h'.start_le e he)
  start_le_end m' hm' := Nat.le_trans (h.start_le_end m rfl) (h'.start_le_end m' hm')
  le_end m' hm' e he := by
    rcases List.mem_append.mp he with he | he
    · exact Nat.le_trans (h.le_end m rfl e he) (h'.start_le_end m' hm')
    · exact h'.le_end m' hm' e he

theorem IsOrderly.of_append_nil {start : Nat} {es : List Entry} {m? : Option Moment}
    (h : IsOrderly start (es ++ []) m?) : IsOrderly start es m? := by
  rwa [List.append_nil] at h

theorem IsOrderly.cons {start : Nat} {e : Entry} {es : List Entry} {m? : Option Moment}
    (he : start ≤ e.moment.time) (h : IsOrderly e.moment.time es m?) :
    IsOrderly start (e :: es) m? where
  sorted := List.pairwise_cons.mpr ⟨h.start_le, h.sorted⟩
  start_le f hf := by
    rcases List.mem_cons.mp hf with rfl | hf
    · exact he
    · exact Nat.le_trans he (h.start_le f hf)
  start_le_end m hm := Nat.le_trans he (h.start_le_end m hm)
  le_end m hm f hf := by
    rcases List.mem_cons.mp hf with rfl | hf
    · exact h.start_le_end m hm
    · exact h.le_end m hm f hf

/-- Entries behind which there is a wait. -/
theorem IsOrderly.wait {start : Nat} {es : List Entry} {m : Moment}
    (h : IsOrderly start es (some m)) (ms : Nat) : IsOrderly start es (some (m.later ms)) :=
  (h.append (isOrderly_nil fun m' hm' => by cases hm'; simp)).of_append_nil

/-- Entries at one moment. -/
theorem isOrderly_of_forall_eq {start : Nat} {es : List Entry} {m : Moment} (hm : start ≤ m.time)
    (h : ∀ e ∈ es, e.moment = m) : IsOrderly start es (some m) := by
  induction es with
  | nil => exact isOrderly_nil (by simpa using hm)
  | cons e es ih =>
    have he : e.moment = m := h e List.mem_cons_self
    have ih := ih fun f hf => h f (List.mem_cons_of_mem _ hf)
    refine .cons (he ▸ hm) ⟨ih.sorted, fun f hf => ?_, ?_, ih.le_end⟩
    · have hf' : f.moment = m := h f (List.mem_cons_of_mem _ hf)
      exact Nat.le_of_eq (by rw [he, hf'])
    · simp [he]

end Steward.Supervision
