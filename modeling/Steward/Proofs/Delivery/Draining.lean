import Steward.Proofs.Delivery.Handover

/-!
# What a flush brings about

Behind a flush every lane has handled all that it had accepted before, at the times at which it
would have done so anyway. The flush itself lasts until the slowest lane has done so and not longer,
for the lanes work side by side and a marker that waits for room in a queue holds up none of them.

Results:
* `Lane.marks_run_enqueue`: when a marker is taken.
* `Lanes.now_flush_eq_foldl`: when a flush ends.
* `Lanes.after_drains`: what a flush brings about, after whatever actions.
-/

namespace Steward.Delivery

/-! ## When markers are taken -/

namespace Lane

variable {l k : Lane} {start now stop : Nat} {queue : List Envelope}

theorem marks_take (hplain : .marker ∉ queue) : (take stop queue now l).marks = l.marks := by
  induction queue generalizing now l with
  | nil => rfl
  | cons x rest ih =>
    rw [List.mem_cons, not_or] at hplain
    cases x with
    | marker => exact absurd rfl hplain.1
    | event e =>
      rw [take]
      split
      · exact ih hplain.2
      · rfl

/-- A lane without markers takes none. -/
theorem marks_run (hplain : l.IsPlain) (start stop : Nat) : (l.run start stop).marks = l.marks := by
  obtain ⟨-, heq⟩ | ⟨e, done, -, -, heq⟩ | heq := run_cases l start stop
  · rw [heq, marks_take hplain]
  · rw [heq, marks_take hplain]
    rfl
  · rw [heq]

/-- A marker behind some events is taken when they are handled. -/
theorem marks_take_concat (hplain : .marker ∉ queue)
    (hstop : now + (queue.filterMap Envelope.event?).length * l.subscriber.pause < stop) :
    (take stop (queue ++ [.marker]) now l).marks =
      l.marks ++ [now + (queue.filterMap Envelope.event?).length * l.subscriber.pause] := by
  induction queue generalizing now l with
  | nil => simp [take]
  | cons x rest ih =>
    rw [List.mem_cons, not_or] at hplain
    cases x with
    | marker => exact absurd rfl hplain.1
    | event e =>
      rw [filterMap_event_cons, List.length_cons, Nat.succ_mul] at hstop ⊢
      have hdone : now + l.subscriber.pause < stop := by omega
      have hrest : now + l.subscriber.pause +
          (rest.filterMap Envelope.event?).length * l.subscriber.pause < stop := by omega
      have htime : now + l.subscriber.pause +
          (rest.filterMap Envelope.event?).length * l.subscriber.pause =
          now + ((rest.filterMap Envelope.event?).length * l.subscriber.pause +
            l.subscriber.pause) := by omega
      have hrestmarks := ih (l := l.finish e (now + l.subscriber.pause)) hplain.2 hrest
      rw [List.cons_append, take, if_pos hdone, hrestmarks, ← htime]
      rfl

theorem idleAt_enqueue_marker (l : Lane) (now : Nat) :
    (l.enqueue .marker).idleAt now = l.idleAt now := by
  have hbacklog : (l.enqueue .marker).backlog = l.backlog := by simp [backlog, enqueue]
  rw [idleAt, idleAt, hbacklog]
  rfl

/-- A marker is taken when the lane would be idle without it. -/
theorem marks_run_enqueue (hplain : l.IsPlain) (hstop : l.idleAt now < stop) :
    ((l.enqueue .marker).run now stop).marks = l.marks ++ [l.idleAt now] := by
  rw [idleAt, backlog_eq_length] at hstop ⊢
  unfold run nextTake at *
  split
  · next e done hc =>
    have hcurrent : l.current = some (e, done) := hc
    rw [hcurrent, Option.map_some, Option.getD_some] at hstop ⊢
    have hdone : done < stop := by omega
    rw [if_pos hdone]
    exact marks_take_concat hplain hstop
  · next hc =>
    have hcurrent : l.current = none := hc
    rw [hcurrent, Option.map_none, Option.getD_none] at hstop ⊢
    have hnow : now < stop := by omega
    rw [if_pos hnow]
    exact marks_take_concat hplain hstop

/-- What a lane is that gets a marker: a lane without one, and the marker behind all it holds. -/
theorem exists_mark_eq (hplain : l.IsPlain) (now : Nat) :
    ∃ k : Lane, k.IsPlain ∧ k.marks = l.marks ∧ (l.mark now).2 = k.enqueue .marker := by
  unfold mark
  split
  · exact ⟨_, isPlain_run hplain _ _, marks_run hplain _ _, rfl⟩
  · exact ⟨l, hplain, rfl, rfl⟩

/-- The marker that a lane gets while it works is taken when the lane has handled all it held, but
    not before it is there. -/
theorem IsRegular.marks_marked {m : Nat × Lane} (h : l.IsRegular start) (hnow : start ≤ now)
    (hm : m = (l.run start now).mark now) (hstop : max m.1 (l.idleAt start) < stop) :
    (m.2.run m.1 stop).marks = l.marks ++ [max m.1 (l.idleAt start)] := by
  have hproceeds := h.proceeds_marked hnow
  have hlater := Nat.le_trans hnow (now_le_mark l start now)
  obtain ⟨k, hplain, hmarks, hk⟩ := exists_mark_eq (isPlain_run h.isPlain start now) now
  rw [← hm] at hproceeds hlater hk
  have hidle : k.idleAt m.1 = max m.1 (l.idleAt start) := by
    rw [← idleAt_enqueue_marker, ← hk]
    exact hproceeds.idleAt_eq hlater h.toIsOnTime
  rw [← hidle] at hstop ⊢
  rw [hk, marks_run_enqueue hplain hstop, hmarks, marks_run h.isPlain]

/-- What a flush from the time `start` to the time `done` has made of a lane `l` of the subscriber
    `sub` to which `os` was offered before. -/
structure IsDrained (sub : Subscriber) (os : List Offer) (start : Nat) (l : Lane) (done : Nat)
    (l' : Lane) : Prop where
  /-- Nothing waits and nothing is handled any more. -/
  isIdle : l'.IsIdle
  /-- All events that were not dropped were handled, in order and each once. -/
  handled : l'.handled.map Handling.event = (sub.kept os).map Offer.event
  /-- They were handled at the times that were settled before the flush. -/
  timetable : l'.handled = l.timetable start
  /-- No event was dropped beside those that had met a full queue. -/
  dropped : l'.dropped = l.dropped ∧ l'.dropped = (sub.lost os).map Offer.event
  /-- All events are accounted for. -/
  balance : l'.handled.length + l'.dropped.length = os.length
  /-- The lane was idle when the last event was handled. -/
  idleAt : l.idleAt start = latest start l'.handled
  /-- The marker was taken behind all events, before the flush ended. -/
  marked : ∃ t, l'.marks = l.marks ++ [t] ∧ latest start l'.handled ≤ t ∧ t ≤ done

/-- A lane that goes on until it is idle and has taken a marker. -/
theorem IsBooked.isDrained {sub : Subscriber} {os : List Offer} {rs : List Notice} {done t : Nat}
    (h : l.IsBooked sub os rs start) (hl : l.Proceeds start done k) (hk : k.IsIdle)
    (hmarks : k.marks = l.marks ++ [t]) (hlater : l.idleAt start ≤ t) (hend : t ≤ done) :
    IsDrained sub os start l done k := by
  have hover := h.handsOver hl
  have htimetable : k.handled = l.timetable start := by
    rw [← hl.timetable, hk.timetable_eq]
  have hidle : l.idleAt start = latest start k.handled := by
    rw [htimetable, idleAt_eq_latest h.toIsOnTime]
  have haccepted := hover.accepted
  have hbalance := hover.balance
  rw [queued, hk.queue, hk.current] at haccepted hbalance
  refine ⟨hk, ?_, htimetable, ⟨hl.dropped, hover.dropped⟩, ?_, hidle, t, hmarks, ?_, hend⟩
  · simpa using haccepted
  · simpa using hbalance
  · rw [← hidle]
    exact hlater

end Lane

/-! ## When a flush ends -/

namespace Lanes

variable {s : Lanes} {start now t : Nat} {ls : List Lane}

/-- All markers are in before the slowest lane is idle. -/
theorem markAll_le (hls : ∀ l ∈ ls, l.IsRegular start) (hstart : start ≤ now) (hnow : now ≤ t)
    (hidle : ∀ l ∈ ls, l.idleAt start ≤ t) : (markAll start now ls).1 ≤ t := by
  induction ls generalizing now with
  | nil => exact hnow
  | cons l ls ih =>
    rw [List.forall_mem_cons] at hls hidle
    have hrun := Lane.proceeds_run l hstart (.inl rfl)
    have hmark : ((l.run start now).mark now).1 ≤ t := by
      have hle := Lane.mark_le_idleAt (l.run start now) now
      rw [hrun.idleAt_eq hstart hls.1.toIsOnTime] at hle
      have hlane := hidle.1
      omega
    have hlater := Lane.now_le_mark l start now
    exact ih hls.2 (Nat.le_trans hstart hlater) hmark hidle.2

/-- A flush ends when the slowest lane is idle, or at once if all are. -/
theorem now_flush_eq_foldl (hs : ∀ l ∈ s.lanes, l.IsRegular s.now) :
    s.flush.now = s.lanes.foldl (fun t l => max t (l.idleAt s.now)) s.now := by
  have hmarked := (List.forall₂_and_left _ _).mpr ⟨hs, proceeds_markAll hs⟩
  apply Nat.le_antisymm
  · obtain ⟨hnow, hidle⟩ := foldl_max_le_iff.mp
      (Nat.le_refl (s.lanes.foldl (fun t l => max t (l.idleAt s.now)) s.now))
    have hlast := markAll_le hs (Nat.le_refl s.now) hnow hidle
    apply foldl_max_le_iff.mpr
    refine ⟨hlast, fun m hm => ?_⟩
    obtain ⟨l, hl, hregular, hproceeds, hlater, hle⟩ := exists_of_mem_right hmarked hm
    rw [hproceeds.idleAt_eq hlater hregular.toIsOnTime]
    exact Nat.max_le.mpr ⟨Nat.le_trans hle hlast, hidle l hl⟩
  · apply foldl_max_le_iff.mpr
    refine ⟨now_le_now_flush s, fun l hl => ?_⟩
    obtain ⟨m, hm, hregular, hproceeds, hlater, -⟩ := exists_of_mem_right hmarked.flip hl
    have hidle := (le_now_flush s).2 m hm
    rw [hproceeds.idleAt_eq hlater hregular.toIsOnTime] at hidle
    exact Nat.le_trans (Nat.le_max_right ..) hidle

example : (after [{ name := "slow", pause := 20 }, { name := "fast", pause := 5, capacity := 2 }]
    [.emit { kind := .resourceStopped }, .emit { kind := .backendsReleased },
      .emit { kind := .allStopped }, .flush]).now = 60 := by
  decide

/-- Each lane takes its marker when it has handled all it held, and before the flush ends. -/
theorem marks_flush (hs : ∀ l ∈ s.lanes, l.IsRegular s.now) :
    List.Forall₂ (fun l l' => ∃ t, l'.marks = l.marks ++ [t] ∧ max s.now (l.idleAt s.now) ≤ t ∧
      t ≤ s.flush.now) s.lanes s.flush.lanes := by
  have hmember : ∀ l ∈ s.lanes, l ∈ s.lanes := fun l hl => hl
  have hmarked := (List.forall₂_and_left _ _).mpr
    ⟨hmember, forall₂_markAll (Nat.le_refl s.now) s.lanes⟩
  have hslowest := (foldl_max_le_iff.mp (Nat.le_of_eq (now_flush_eq_foldl hs).symm)).2
  apply List.forall₂_map_right_iff.mpr
  apply hmarked.imp
  rintro l m ⟨hl, t, ht, hm, hlast⟩
  have hlater : s.now ≤ m.1 := by
    rw [hm]
    exact Nat.le_trans ht (Lane.now_le_mark l s.now t)
  have hend : max m.1 (l.idleAt s.now) ≤ s.flush.now :=
    Nat.max_le.mpr ⟨Nat.le_trans hlast (le_now_flush s).1, hslowest l hl⟩
  refine ⟨_, (hs l hl).marks_marked ht hm (Nat.lt_succ_of_le hend), ?_, hend⟩
  omega

/-! ## Behind a flush -/

/-- What a flush behind some actions brings about in a set of lanes for some subscribers. -/
structure Drains (subscribers : List Subscriber) (actions : List Action) : Prop where
  /-- All that was emitted before had been offered to each lane. -/
  offered : ∀ (i : Nat) (sub : Subscriber), subscribers[i]? = some sub →
    (offers subscribers i actions).map Offer.event = actions.filterMap Action.emitted?
  /-- Each lane has handled all it had accepted. -/
  lane : ∀ (i : Nat) (sub : Subscriber), subscribers[i]? = some sub →
    ∃ l l' : Lane, (after subscribers actions).lanes[i]? = some l ∧
      (after subscribers (actions ++ [.flush])).lanes[i]? = some l' ∧
      Lane.IsDrained sub (offers subscribers i actions) (after subscribers actions).now l
        (after subscribers (actions ++ [.flush])).now l'
  /-- No event is reported as dropped. -/
  silent : (after subscribers (actions ++ [.flush])).dropRecords =
    (after subscribers actions).dropRecords
  /-- The flush ends when the slowest lane has handled what it held: the time that it takes is the
      greatest of the times that the lanes need. -/
  now_eq : (after subscribers (actions ++ [.flush])).now =
    (after subscribers actions).lanes.foldl
      (fun t l => max t (l.idleAt (after subscribers actions).now)) (after subscribers actions).now
  /-- It ends at once, or at the time at which some lane has handled an event. -/
  attained : (after subscribers (actions ++ [.flush])).now = (after subscribers actions).now ∨
    ∃ l ∈ (after subscribers (actions ++ [.flush])).lanes, ∃ h ∈ l.handled,
      h.time = (after subscribers (actions ++ [.flush])).now
  /-- It ends at the time at which the last lane takes its marker. -/
  acknowledged : subscribers ≠ [] → ∃ l ∈ (after subscribers (actions ++ [.flush])).lanes,
    l.marks.getLast? = some (after subscribers (actions ++ [.flush])).now

/-- A flush ends at once, or when an event has been handled. -/
theorem now_flush_eq_or (hs : ∀ l ∈ s.lanes, l.IsRegular s.now) : s.flush.now = s.now ∨
    ∃ l ∈ s.flush.lanes, ∃ h ∈ l.handled, h.time = s.flush.now := by
  obtain heq | ⟨l, hl, heq⟩ := foldl_max_eq_or (fun l : Lane => l.idleAt s.now) s.lanes s.now
  · exact .inl ((now_flush_eq_foldl hs).trans heq)
  · rw [← now_flush_eq_foldl hs, Lane.idleAt_eq_latest (hs l hl).toIsOnTime] at heq
    obtain ⟨l', hl', hproceeds⟩ := exists_of_mem_right (goesOn_flush hs).proceeds.flip hl
    have htimetable : l.timetable s.now = l'.handled := by
      rw [← hproceeds.timetable, (isIdle_flush s l' hl').timetable_eq]
    rw [← heq]
    obtain hnow | ⟨h, hh, hlatest⟩ := latest_eq_or s.now (l.timetable s.now)
    · exact .inl hnow
    · rw [htimetable] at hh
      exact .inr ⟨l', hl', h, hh, hlatest⟩

/-- A flush ends when the last marker is taken. -/
theorem exists_marks_flush (hs : ∀ l ∈ s.lanes, l.IsRegular s.now) (hne : s.lanes ≠ []) :
    ∃ l ∈ s.flush.lanes, l.marks.getLast? = some s.flush.now := by
  -- the marker of the slowest lane, or of any lane if all are idle
  have hslowest : ∃ l ∈ s.lanes, s.flush.now ≤ max s.now (l.idleAt s.now) := by
    rw [now_flush_eq_foldl hs]
    obtain heq | ⟨l, hl, heq⟩ := foldl_max_eq_or (fun l : Lane => l.idleAt s.now) s.lanes s.now
    · obtain ⟨l, hl⟩ := List.exists_mem_of_ne_nil s.lanes hne
      exact ⟨l, hl, by rw [heq]; exact Nat.le_max_left ..⟩
    · exact ⟨l, hl, by rw [← heq]; exact Nat.le_max_right ..⟩
  obtain ⟨l, hl, hle⟩ := hslowest
  obtain ⟨l', hl', t, hmarks, hlater, hend⟩ := exists_of_mem_right (marks_flush hs).flip hl
  have htime : t = s.flush.now := by omega
  refine ⟨l', hl', ?_⟩
  rw [hmarks, htime]
  simp

/-- Behind a flush all events are handled that were emitted before and not dropped; it drops none,
    and ends when the slowest lane is through. -/
theorem after_drains (subscribers : List Subscriber) (actions : List Action) :
    Drains subscribers actions := by
  have hregular := isRegular_after subscribers actions
  have hflush : after subscribers (actions ++ [.flush]) = (after subscribers actions).flush :=
    after_concat ..
  refine ⟨fun i sub hi => offered_eq hi actions, ?_, ?_, ?_, ?_, ?_⟩
  · intro i sub hi
    obtain ⟨l, hl, hbooked⟩ := exists_isBooked hi actions
    obtain ⟨l', hl', hproceeds⟩ := exists_of_getElem? (goesOn_flush hregular).proceeds hl
    obtain ⟨k, hk, t, hmarks, hlater, hend⟩ := exists_of_getElem? (marks_flush hregular) hl
    obtain rfl : l' = k := Option.some.inj (hl'.symm.trans hk)
    have hidle := isIdle_flush (after subscribers actions) l' (List.mem_of_getElem? hl')
    rw [hflush]
    exact ⟨l, l', hl, hl',
      hbooked.isDrained hproceeds hidle hmarks (Nat.le_trans (Nat.le_max_right ..) hlater) hend⟩
  · rw [hflush]
    exact dropRecords_goOn ..
  · rw [hflush]
    exact now_flush_eq_foldl hregular
  · rw [hflush]
    exact now_flush_eq_or hregular
  · intro hne
    rw [hflush]
    apply exists_marks_flush hregular
    intro hnil
    apply hne
    rw [← subscriber_after subscribers actions, hnil]
    rfl

end Lanes

end Steward.Delivery
