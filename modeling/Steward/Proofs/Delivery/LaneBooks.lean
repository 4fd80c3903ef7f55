import Mathlib.Data.List.Forall2
import Steward.Proofs.Delivery.Flush

/-!
# What becomes of the events of a lane

An event that is offered to a lane is dropped, or it is accepted: then it waits in the queue until
it is handed to the subscriber, who is done with it later. While a lane works, accepted events only
move on: none is lost, none comes in, and their order stays (`Lane.Continues`).

Results:
* `Lane.works_run`: what a lane does that is run for some time.
* `Lanes.works_flush`: what all lanes do that are flushed.
* `Lane.length_handed_add_queue`: how long a queue is.
-/

namespace Steward.Delivery

/-! ## The books of a lane -/

/-- The event that an envelope holds. -/
def Envelope.event? : Envelope → Option Event
  | event e => some e
  | marker => none

namespace Lane

/-- The events that were handed to the subscriber, in order: it is done with all of them, or with
    all but the last. -/
def handed (l : Lane) : List Event :=
  l.handled.map Handling.event ++ (l.current.map Prod.fst).toList

/-- The events that wait in the queue. -/
def queued (l : Lane) : List Event := l.queue.filterMap Envelope.event?

/-- The events that were not dropped, in order. -/
def accepted (l : Lane) : List Event := l.handed ++ l.queued

/-- No marker is in the queue. -/
def IsPlain (l : Lane) : Prop := Envelope.marker ∉ l.queue

/-- A lane comes from another by going on until a time at most. -/
structure Continues (now : Nat) (l l' : Lane) : Prop where
  subscriber : l'.subscriber = l.subscriber
  accepted : l'.accepted = l.accepted
  handed : l.handed <+: l'.handed
  dropped : l'.dropped = l.dropped
  handled : ∃ news, l'.handled = l.handled ++ news ∧ ∀ h ∈ news, h.time ≤ now

/-- A lane goes on, and leaves no marker of its own in the queue. -/
structure Works (now : Nat) (l l' : Lane) : Prop extends Continues now l l' where
  isPlain : l.IsPlain → l'.IsPlain

variable {l l' k : Lane} {now now' start stop done : Nat} {queue : List Envelope} {e : Event}

theorem Continues.refl (now : Nat) (l : Lane) : Continues now l l :=
  ⟨rfl, rfl, List.prefix_refl _, rfl, [], by simp, by simp⟩

theorem Continues.trans (h : Continues now l l') (h' : Continues now l' k) : Continues now l k := by
  obtain ⟨news, heq, hnews⟩ := h.handled
  obtain ⟨news', heq', hnews'⟩ := h'.handled
  refine ⟨h'.subscriber.trans h.subscriber, h'.accepted.trans h.accepted,
    h.handed.trans h'.handed, h'.dropped.trans h.dropped, news ++ news', ?_,
    List.forall_mem_append.mpr ⟨hnews, hnews'⟩⟩
  rw [heq', heq, List.append_assoc]

/-! ## What a lane does -/

/-- The subscriber is done with the event that was handed to it. -/
theorem continues_finish (hc : l.current = some (e, done)) (hdone : done ≤ now) :
    l.Continues now (l.finish e done) where
  subscriber := rfl
  accepted := by simp [accepted, handed, queued, finish, hc]
  handed := by simp [handed, finish, hc]
  dropped := rfl
  handled := ⟨_, rfl, by simpa using hdone⟩

/-- An event is handed to the subscriber, who is not done with it yet. -/
theorem continues_hand (hc : l.current = none) (hq : l.queue = .event e :: queue) (done : Nat) :
    l.Continues now { l with queue := queue, current := some (e, done) } where
  subscriber := rfl
  accepted := by simp [accepted, handed, queued, hc, hq, Envelope.event?]
  handed := by simp [handed, hc]
  dropped := rfl
  handled := ⟨[], by simp, by simp⟩

/-- A marker is taken from the queue. -/
theorem continues_mark (hq : l.queue = .marker :: queue) (marks : List Nat) :
    l.Continues now { l with queue := queue, marks := marks } where
  subscriber := rfl
  accepted := by
    have hqueued : l.queued = queue.filterMap Envelope.event? := by
      rw [queued, hq, List.filterMap_cons_none rfl]
    rw [accepted, accepted, hqueued]
    rfl
  handed := List.prefix_refl _
  dropped := rfl
  handled := ⟨[], by simp, by simp⟩

/-- A marker is put into the queue. -/
theorem continues_enqueue (now : Nat) (l : Lane) : l.Continues now (l.enqueue .marker) where
  subscriber := rfl
  accepted := by simp [accepted, handed, queued, enqueue, Envelope.event?]
  handed := List.prefix_refl _
  dropped := rfl
  handled := ⟨[], by simp [enqueue], by simp⟩

theorem take_queue (queue' : List Envelope) :
    take stop queue now { l with queue := queue' } = take stop queue now l := by
  induction queue generalizing now l with
  | nil => rfl
  | cons x rest ih =>
    cases x with
    | marker => exact ih (l := { l with marks := l.marks ++ [now] })
    | event e =>
      rw [take, take]
      split
      · exact ih (l := l.finish e (now + l.subscriber.pause))
      · rfl

/-- Taking from the queue of a lane until a time. -/
theorem continues_take (hc : l.current = none) (hq : l.queue = queue) (hstop : stop ≤ now' + 1) :
    l.Continues now' (take stop queue now l) := by
  induction queue generalizing now l with
  | nil =>
    have hsame : take stop [] now l = l := by rw [take, ← hq]
    rw [hsame]
    exact Continues.refl now' l
  | cons x rest ih =>
    cases x with
    | marker =>
      let marked : Lane := { l with queue := rest, marks := l.marks ++ [now] }
      have hmark : l.Continues now' marked := continues_mark hq _
      have hrest : marked.Continues now' (take stop rest now marked) := ih hc rfl
      rw [take, ← take_queue rest]
      exact hmark.trans hrest
    | event e =>
      let done := now + l.subscriber.pause
      let handed : Lane := { l with queue := rest, current := some (e, done) }
      have hhand : l.Continues now' handed := continues_hand hc hq done
      rw [take]
      split
      · next hdone =>
        have hfinish : handed.Continues now' (handed.finish e done) :=
          continues_finish rfl (Nat.le_of_lt_succ (Nat.lt_of_lt_of_le hdone hstop))
        have hrest : (handed.finish e done).Continues now'
            (take stop rest done (handed.finish e done)) := ih rfl rfl
        rw [← take_queue rest]
        exact hhand.trans (hfinish.trans hrest)
      · exact hhand

/-- How a lane is run: it takes from its queue, perhaps after the subscriber is done with an event,
    or it stays as it is. -/
theorem run_cases (l : Lane) (now stop : Nat) :
    (l.current = none ∧ l.run now stop = take stop l.queue now l) ∨
      (∃ e done, l.current = some (e, done) ∧ done < stop ∧
        l.run now stop = take stop l.queue done (l.finish e done)) ∨ l.run now stop = l := by
  unfold run
  split
  · next e done hc =>
    split
    · next hdone => exact .inr (.inl ⟨e, done, hc, hdone, rfl⟩)
    · exact .inr (.inr rfl)
  · next hc =>
    split
    · exact .inl ⟨hc, rfl⟩
    · exact .inr (.inr rfl)

theorem continues_run (l : Lane) (start : Nat) (hstop : stop ≤ now + 1) :
    l.Continues now (l.run start stop) := by
  obtain ⟨hc, heq⟩ | ⟨e, done, hc, hdone, heq⟩ | heq := run_cases l start stop
  · rw [heq]
    exact continues_take hc rfl hstop
  · rw [heq]
    exact (continues_finish hc (by omega)).trans (continues_take rfl rfl hstop)
  · rw [heq]
    exact Continues.refl now l

/-- Taking from a queue leaves the end of it. -/
theorem queue_take_suffix : (take stop queue now l).queue <:+ queue := by
  induction queue generalizing now l with
  | nil => exact List.suffix_refl _
  | cons x rest ih =>
    cases x with
    | marker => exact ih.trans (List.suffix_cons _ _)
    | event e =>
      rw [take]
      split
      · exact ih.trans (List.suffix_cons _ _)
      · exact List.suffix_cons _ _

theorem queue_run_suffix (l : Lane) (start stop : Nat) : (l.run start stop).queue <:+ l.queue := by
  obtain ⟨-, heq⟩ | ⟨e, done, -, -, heq⟩ | heq := run_cases l start stop
  · rw [heq]
    exact queue_take_suffix
  · rw [heq]
    exact queue_take_suffix
  · exact ⟨[], by rw [heq, List.nil_append]⟩

/-- A lane that is run until a time works. -/
theorem works_run (l : Lane) (start : Nat) (hstop : stop ≤ now + 1) :
    l.Works now (l.run start stop) where
  toContinues := continues_run l start hstop
  isPlain hplain hmarker := hplain ((queue_run_suffix l start stop).subset hmarker)

theorem isPlain_of_queue (h : l.queue = []) : l.IsPlain := by simp [IsPlain, h]

/-- All that a lane with an empty queue has accepted was handed over. -/
theorem accepted_of_queue (h : l.queue = []) : l.accepted = l.handed := by
  simp [accepted, queued, h]

/-- All that an idle lane has accepted was handled. -/
theorem IsIdle.accepted_eq (h : l.IsIdle) : l.accepted = l.handled.map Handling.event := by
  simp [accepted_of_queue h.queue, handed, h.current]

/-- A queue without markers holds what was accepted and not handed over. -/
theorem length_handed_add_queue (h : l.IsPlain) :
    l.handed.length + l.queue.length = l.accepted.length := by
  have hqueue : l.queued.length = l.queue.length := by
    refine List.filterMap_length_eq_length.mpr fun x hx => ?_
    cases x with
    | event e => rfl
    | marker => exact absurd hx h
  rw [accepted, List.length_append, hqueue]

/-! ## Offering an event -/

theorem subscriber_offer (l : Lane) (e : Event) : (l.offer e).subscriber = l.subscriber := by
  unfold offer
  split <;> rfl

theorem handled_offer (l : Lane) (e : Event) : (l.offer e).handled = l.handled := by
  unfold offer
  split <;> rfl

theorem handed_offer (l : Lane) (e : Event) : (l.offer e).handed = l.handed := by
  unfold offer
  split <;> rfl

theorem isPlain_offer (h : l.IsPlain) (e : Event) : (l.offer e).IsPlain := by
  unfold offer
  split
  · exact h
  · simpa [IsPlain, enqueue] using h

/-- A full lane drops an event, and the others accept it. -/
theorem offer_cases (l : Lane) (e : Event) :
    (l.isFull = true ∧ (l.offer e).dropped = l.dropped ++ [e] ∧
        (l.offer e).accepted = l.accepted) ∨
      (l.isFull = false ∧ (l.offer e).dropped = l.dropped ∧
        (l.offer e).accepted = l.accepted ++ [e]) := by
  unfold offer
  cases hfull : l.isFull with
  | true => exact .inl ⟨rfl, rfl, rfl⟩
  | false =>
    refine .inr ⟨rfl, rfl, ?_⟩
    simp [accepted, handed, queued, enqueue, Envelope.event?]

end Lane

/-! ## Flushing -/

namespace Lanes

/-- While markers are put into lanes and all of them are run until a time, they work. -/
theorem works_markAll {start now done : Nat} {ls : List Lane}
    (hdone : (markAll start now ls).1 ≤ done)
    (hidle : ∀ m ∈ (markAll start now ls).2, m.2.idleAt m.1 ≤ done) :
    List.Forall₂ (Lane.Works done) ls
      ((markAll start now ls).2.map fun m => m.2.run m.1 (done + 1)) := by
  induction ls generalizing now with
  | nil => exact .nil
  | cons l ls ih =>
    have hmarked : ((l.run start now).mark now).1 ≤ done :=
      Nat.le_trans (now_le_markAll start _ ls) hdone
    have hnow : now ≤ done := Nat.le_trans (Lane.now_le_mark l start now) hmarked
    rw [markAll] at hidle ⊢
    rw [List.forall_mem_cons] at hidle
    refine .cons ⟨?_, fun _ => Lane.isPlain_of_queue
      (Lane.isIdle_run (Nat.lt_succ_of_le hidle.1)).queue⟩
      (ih hdone hidle.2)
    -- before the marker, at the marker and behind it
    have hbefore : l.Continues done (l.run start now) := Lane.continues_run l start (by omega)
    have hbehind := Lane.continues_run ((l.run start now).mark now).2
      ((l.run start now).mark now).1 (Nat.le_refl (done + 1))
    refine hbefore.trans (Lane.Continues.trans ?_ hbehind)
    unfold Lane.mark at hmarked ⊢
    split at hmarked
    · next hfull =>
      rw [if_pos hfull]
      have hroom : (l.run start now).Continues done
          ((l.run start now).run now ((l.run start now).nextTake now + 1)) :=
        Lane.continues_run _ now (Nat.succ_le_succ hmarked)
      exact hroom.trans (Lane.continues_enqueue done _)
    · next hfull =>
      rw [if_neg hfull]
      exact Lane.continues_enqueue done _

/-- Lanes that are flushed work. -/
theorem works_flush (s : Lanes) : List.Forall₂ (Lane.Works s.flush.now) s.lanes s.flush.lanes :=
  works_markAll (le_now_flush s).1 (le_now_flush s).2

end Lanes

end Steward.Delivery
