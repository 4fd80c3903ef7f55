import Steward.Delivery.Dispatcher

/-!
# How long a flush takes

A flush ends no sooner than it begins, and behind it all lanes are idle, so another one would end at
once.

Results:
* `Lane.isIdle_run`: a lane that is run for long enough is idle.
* `Lanes.now_le_now_flush`: a flush does not end before it begins.
* `Lanes.now_flush_eq`: a flush of idle lanes takes no time.
* `Dispatcher.freeAt_serve_serve`: a request that is taken up right behind another one is carried
  out at once.
-/

namespace Steward.Delivery

/-! ## The greatest of several numbers -/

section
variable {α : Type} {f : α → Nat} {xs : List α} {a b : Nat}

theorem foldl_max_le_iff :
    xs.foldl (fun t x => max t (f x)) a ≤ b ↔ a ≤ b ∧ ∀ x ∈ xs, f x ≤ b := by
  induction xs generalizing a with
  | nil => simp
  | cons x xs ih => rw [List.foldl_cons, ih, Nat.max_le, List.forall_mem_cons, and_assoc]

theorem foldl_max_eq_or (f : α → Nat) (xs : List α) (a : Nat) :
    xs.foldl (fun t x => max t (f x)) a = a ∨
      ∃ x ∈ xs, f x = xs.foldl (fun t x => max t (f x)) a := by
  induction xs generalizing a with
  | nil => exact .inl rfl
  | cons x xs ih =>
    rw [List.foldl_cons]
    obtain heq | ⟨y, hy, heq⟩ := ih (max a (f x))
    · rw [heq]
      obtain hle | hle := Nat.le_total a (f x)
      · exact .inr ⟨x, List.mem_cons_self, (Nat.max_eq_right hle).symm⟩
      · exact .inl (Nat.max_eq_left hle)
    · exact .inr ⟨y, List.mem_cons_of_mem _ hy, heq⟩

end

/-! ## Running a lane -/

namespace Lane

/-- A lane that holds nothing and handles nothing. -/
structure IsIdle (l : Lane) : Prop where
  queue : l.queue = []
  current : l.current = none

variable {l : Lane} {start now stop : Nat}

/-- What is handled behind a run takes until its end at least. -/
theorem le_of_current_take {e : Event} {done : Nat} :
    ∀ {queue : List Envelope} {now : Nat} {l : Lane}, l.current = none →
      (take stop queue now l).current = some (e, done) → stop ≤ done := by
  intro queue
  induction queue with
  | nil =>
    intro now l hl h
    simp [take, hl] at h
  | cons x rest ih =>
    intro now l hl h
    cases x with
    | marker => exact ih (by simpa using hl) h
    | event f =>
      rw [take] at h
      split at h
      · exact ih rfl h
      · next hlate =>
        simp only [Option.some.injEq, Prod.mk.injEq] at h
        omega

theorem le_nextTake_run (l : Lane) (start now : Nat) : now ≤ (l.run start now).nextTake now := by
  unfold nextTake
  cases hcurrent : (l.run start now).current with
  | none => exact Nat.le_refl _
  | some c =>
    obtain ⟨e, done⟩ := c
    rw [Option.map_some, Option.getD_some]
    unfold run at hcurrent
    split at hcurrent
    · split at hcurrent
      · exact le_of_current_take rfl hcurrent
      · next hc hlate =>
        rw [hc, Option.some.injEq, Prod.mk.injEq] at hcurrent
        omega
    · next hc =>
      split at hcurrent
      · exact le_of_current_take hc hcurrent
      · rw [hc] at hcurrent
        exact absurd hcurrent (by simp)

/-- Taking from a queue for long enough leaves nothing. -/
theorem isIdle_take : ∀ {queue : List Envelope} {now : Nat} {l : Lane}, l.current = none →
    now + (queue.countP fun x => x != .marker) * l.subscriber.pause < stop →
    (take stop queue now l).IsIdle := by
  intro queue
  induction queue with
  | nil => intro now l hl _; exact ⟨rfl, hl⟩
  | cons x rest ih =>
    intro now l hl h
    cases x with
    | marker => exact ih hl (by simpa [List.countP_cons] using h)
    | event e =>
      have hcount : ((Envelope.event e :: rest).countP fun x => x != .marker) =
          (rest.countP fun x => x != .marker) + 1 :=
        List.countP_cons_of_pos (by simp)
      rw [hcount, Nat.succ_mul] at h
      have hdone : now + l.subscriber.pause < stop := by omega
      rw [take, if_pos hdone]
      refine ih rfl ?_
      show now + l.subscriber.pause + _ * l.subscriber.pause < stop
      omega

/-- A lane that is run for long enough is idle. -/
theorem isIdle_run (h : l.idleAt now < stop) : (l.run now stop).IsIdle := by
  unfold idleAt nextTake backlog at h
  unfold run
  split
  · next e done hc =>
    rw [hc, Option.map_some, Option.getD_some] at h
    have hdone : done < stop := by omega
    rw [if_pos hdone]
    exact isIdle_take rfl h
  · next hc =>
    rw [hc, Option.map_none, Option.getD_none] at h
    have hnow : now < stop := by omega
    rw [if_pos hnow]
    exact isIdle_take hc h

theorem now_le_mark (l : Lane) (start now : Nat) : now ≤ ((l.run start now).mark now).1 := by
  unfold mark
  split
  · exact le_nextTake_run l start now
  · exact Nat.le_refl _

/-- A marker fits into the queue of an idle lane, and is taken at once. -/
theorem IsIdle.mark_eq (h : l.IsIdle) (now : Nat) :
    (l.run now now).mark now = (now, l.enqueue .marker) ∧ (l.enqueue .marker).idleAt now = now := by
  have hrun : l.run now now = l := by simp [run, h.current]
  have hroom : l.isFull = false := by
    have hlimit : 0 < l.limit := Nat.lt_of_lt_of_le Nat.one_pos (Nat.le_max_right ..)
    simp only [isFull, h.queue, List.length_nil, decide_eq_false_iff_not]
    omega
  constructor
  · rw [hrun, mark, if_neg (by simp [hroom])]
  · simp [idleAt, nextTake, backlog, enqueue, h.queue, h.current]

end Lane

/-! ## Flushing lanes -/

namespace Lanes

variable {s : Lanes} {start now : Nat} {ls : List Lane}

theorem now_le_markAll (start now : Nat) (ls : List Lane) : now ≤ (markAll start now ls).1 := by
  induction ls generalizing now with
  | nil => exact Nat.le_refl _
  | cons l ls ih =>
    rw [markAll]
    exact Nat.le_trans (Lane.now_le_mark l start now) (ih _)

/-- A flush ends when all markers are in and all lanes have handled what they held before. -/
theorem le_now_flush (s : Lanes) :
    (markAll s.now s.now s.lanes).1 ≤ s.flush.now ∧
      ∀ m ∈ (markAll s.now s.now s.lanes).2, m.2.idleAt m.1 ≤ s.flush.now :=
  foldl_max_le_iff.mp (Nat.le_refl s.flush.now)

/-- A flush does not end before it begins. -/
theorem now_le_now_flush (s : Lanes) : s.now ≤ s.flush.now :=
  Nat.le_trans (now_le_markAll s.now s.now s.lanes) (le_now_flush s).1

/-- Behind a flush all lanes are idle. -/
theorem isIdle_flush (s : Lanes) : ∀ l ∈ s.flush.lanes, l.IsIdle := by
  intro l hl
  obtain ⟨m, hm, rfl⟩ := List.mem_map.mp hl
  exact Lane.isIdle_run (Nat.lt_succ_of_le ((le_now_flush s).2 m hm))

theorem markAll_of_isIdle (now : Nat) (h : ∀ l ∈ ls, l.IsIdle) :
    (markAll now now ls).1 = now ∧ ∀ m ∈ (markAll now now ls).2, m.2.idleAt m.1 = now := by
  induction ls with
  | nil => simp [markAll]
  | cons l ls ih =>
    obtain ⟨hmark, hidle⟩ := (h l List.mem_cons_self).mark_eq now
    obtain ⟨htime, hall⟩ := ih fun k hk => h k (List.mem_cons_of_mem _ hk)
    rw [markAll]
    dsimp only
    rw [hmark]
    exact ⟨htime, List.forall_mem_cons.mpr ⟨hidle, hall⟩⟩

/-- A flush of idle lanes takes no time. -/
theorem now_flush_eq (h : ∀ l ∈ s.lanes, l.IsIdle) : s.flush.now = s.now := by
  obtain ⟨htime, hall⟩ := markAll_of_isIdle s.now h
  have hle : s.flush.now ≤ s.now := by
    refine foldl_max_le_iff.mpr ⟨Nat.le_of_eq htime, fun m hm => ?_⟩
    exact Nat.le_of_eq (hall m hm)
  have hge := now_le_now_flush s
  omega

theorem now_foldl_emit (es : List Event) (s : Lanes) : (es.foldl emit s).now = s.now := by
  induction es generalizing s with
  | nil => rfl
  | cons e es ih => rw [List.foldl_cons, ih]; rfl

end Lanes

/-! ## Serving requests -/

namespace Dispatcher

variable {d : Dispatcher} {time patience : Nat} {r : Report} {e : Event}

@[simp] theorem requested_report : (d.report r).requested = d.requested := rfl

@[simp] theorem freeAt_report : (d.report r).freeAt = d.freeAt := rfl

@[simp] theorem requested_publish : (d.publish e).requested = d.requested := rfl

@[simp] theorem freeAt_publish : (d.publish e).freeAt = d.freeAt := rfl

@[simp] theorem requested_serve : d.serve.requested = false := rfl

@[simp] theorem requested_collect : d.collect.requested = d.requested := by
  unfold collect
  split <;> rfl

@[simp] theorem freeAt_collect : d.collect.freeAt = d.freeAt := by
  unfold collect freeAt
  split <;> exact Lanes.now_foldl_emit ..

@[simp] theorem requested_forward : d.forward.requested = d.requested := requested_collect

/-- Forwarding takes no time. -/
@[simp] theorem freeAt_forward : d.forward.freeAt = d.freeAt := freeAt_collect

theorem freeAt_le_freeAt_serve (d : Dispatcher) : d.freeAt ≤ d.serve.freeAt := by
  have hflush := d.collect.lanes.now_le_now_flush
  calc d.freeAt
    _ = d.collect.freeAt := freeAt_collect.symm
    _ ≤ d.serve.freeAt := hflush

/-- A request that is taken up right behind another one is carried out at once. -/
theorem freeAt_serve_serve (d : Dispatcher) : d.serve.serve.freeAt = d.serve.freeAt := by
  -- the bus is empty and the lanes are idle
  have hcollect : d.serve.collect.lanes = d.serve.lanes := by
    unfold collect
    split <;> rfl
  have hidle := d.collect.lanes.isIdle_flush
  have hflush : d.serve.lanes.flush.now = d.serve.lanes.now := Lanes.now_flush_eq hidle
  show d.serve.collect.lanes.flush.now = d.serve.lanes.now
  rw [hcollect, hflush]

end Dispatcher

end Steward.Delivery
