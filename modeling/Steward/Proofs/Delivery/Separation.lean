import Steward.Proofs.Delivery.Reporting

/-!
# Lanes do not interfere

Lanes share the clock of their set, and the caller who emits events and waits for flushes. Still a
lane behaves as if it was the only one. Two lanes of one subscriber, each in a set of its own, are
in the same state after the same actions, save that the clocks of the sets differ: a flush lasts as
long as the slowest lane needs.

Results:
* `Lane.Matches`: two lanes in the same state at different times.
* `Lanes.exists_matches_perform`: an action keeps lanes in the same state.
* `Lanes.view_congr`: what a lane shows in two sets.
* `Lanes.after_separate`: what a lane shows, and what is reported about it, depends on its
  subscriber and the actions alone.
-/

namespace Steward.Delivery

/-- What became of an event that was handled, and whether the subscriber broke down on it. -/
def Handling.outcome (h : Handling) : Event × Bool := (h.event, h.broken)

/-- What a report tells beside its subscriber and its time. -/
def Notice.told (n : Notice) : EventKind × Mishap := (n.kind, n.mishap)

/-- Two subscribers that handle events alike, whatever their names are. -/
structure Subscriber.IsLike (s s' : Subscriber) : Prop where
  capacity : s.capacity = s'.capacity
  pause : s.pause = s'.pause
  breaksOn : s.breaksOn = s'.breaksOn

/-! ## Lanes in the same state -/

namespace Lane

/-- The outcomes of the events that were handled, in order. -/
def outcomes (l : Lane) : List (Event × Bool) := l.handled.map Handling.outcome

/-- Two lanes are in the same state, the one at the time `n` and the other one at the time `m`. What
    they handle takes them the same time from then on. -/
structure Matches (n : Nat) (l : Lane) (m : Nat) (k : Lane) : Prop where
  isLike : k.subscriber.IsLike l.subscriber
  queue : k.queue = l.queue
  dropped : k.dropped = l.dropped
  outcomes : k.outcomes = l.outcomes
  current : k.current.map (fun c => (c.1, c.2 + n)) = l.current.map (fun c => (c.1, c.2 + m))

variable {l l' k k' : Lane} {n m now now' stop stop' done done' t : Nat} {queue : List Envelope}
  {e : Event}

theorem matches_new {s s' : Subscriber} (h : s'.IsLike s) :
    Matches 0 { subscriber := s } 0 { subscriber := s' } :=
  ⟨h, rfl, rfl, rfl, rfl⟩

/-- What matters is by how much the clocks differ. -/
theorem Matches.shift (h : Matches n l m k) (t : Nat) : Matches (n + t) l (m + t) k where
  isLike := h.isLike
  queue := h.queue
  dropped := h.dropped
  outcomes := h.outcomes
  current := by
    have hshift := congrArg (Option.map fun c : Event × Nat => (c.1, c.2 + t)) h.current
    simpa [Option.map_map, Function.comp_def, Nat.add_assoc] using hshift

theorem Matches.isFull_eq (h : Matches n l m k) : k.isFull = l.isFull := by
  unfold isFull limit
  rw [h.isLike.capacity, h.queue]

theorem Matches.offer (h : Matches n l m k) (e : Event) :
    Matches n (l.offer e) m (k.offer e) := by
  unfold Lane.offer
  rw [h.isFull_eq]
  split
  · exact ⟨h.isLike, h.queue, by simp [h.dropped], h.outcomes, h.current⟩
  · exact ⟨h.isLike, by simp [enqueue, h.queue], h.dropped, h.outcomes, h.current⟩

/-- Both subscribers are done with an event. -/
theorem Matches.finish (h : Matches n l m k) (e : Event) (done done' : Nat) :
    Matches n (l.finish e done) m (k.finish e done') where
  isLike := h.isLike
  queue := h.queue
  dropped := h.dropped
  outcomes := by
    have houtcomes := h.outcomes
    unfold Lane.outcomes at houtcomes ⊢
    simp [Lane.finish, houtcomes, h.isLike.breaksOn, Handling.outcome]
  current := rfl

/-- Both lanes take from their queues for the same time. -/
theorem Matches.take (h : Matches n l m k) (hl : l.current = none) (hclock : now' + n = now + m)
    (hstop : stop' + n = stop + m) :
    Matches n (Lane.take stop queue now l) m (Lane.take stop' queue now' k) := by
  have hk : k.current = none := by
    have hcurrent := h.current
    rw [hl] at hcurrent
    exact Option.map_eq_none_iff.mp hcurrent
  induction queue generalizing now now' l k with
  | nil => exact ⟨h.isLike, rfl, h.dropped, h.outcomes, h.current⟩
  | cons x rest ih =>
    cases x with
    | marker =>
      have hmark : Matches n { l with marks := l.marks ++ [now] } m
          { k with marks := k.marks ++ [now'] } :=
        ⟨h.isLike, h.queue, h.dropped, h.outcomes, h.current⟩
      exact ih hmark hl hclock hk
    | event e =>
      have hpause := h.isLike.pause
      have hdone : now' + k.subscriber.pause + n = now + l.subscriber.pause + m := by omega
      rw [Lane.take, Lane.take]
      by_cases hlt : now + l.subscriber.pause < stop
      · have hlt' : now' + k.subscriber.pause < stop' := by omega
        rw [if_pos hlt, if_pos hlt']
        exact ih (h.finish e _ _) rfl hdone rfl
      · have hlt' : ¬ now' + k.subscriber.pause < stop' := by omega
        rw [if_neg hlt, if_neg hlt']
        refine ⟨h.isLike, rfl, h.dropped, h.outcomes, ?_⟩
        show some (e, now' + k.subscriber.pause + n) = some (e, now + l.subscriber.pause + m)
        rw [hdone]

/-- Both lanes are run for the same time. -/
theorem Matches.run (h : Matches n l m k) (t : Nat) :
    Matches (n + t) (l.run n (n + t)) (m + t) (k.run m (m + t)) := by
  apply Matches.shift
  have hstop : m + t + n = n + t + m := by omega
  have hcurrent := h.current
  unfold Lane.run
  cases hl : l.current with
  | none =>
    rw [hl] at hcurrent
    have hk : k.current = none := Option.map_eq_none_iff.mp hcurrent
    rw [hk, h.queue]
    by_cases ht : 0 < t
    · have hn : n < n + t := by omega
      have hm : m < m + t := by omega
      simp only [if_pos hn, if_pos hm]
      exact h.take hl (Nat.add_comm m n) hstop
    · have hn : ¬ n < n + t := by omega
      have hm : ¬ m < m + t := by omega
      simp only [if_neg hn, if_neg hm]
      exact h
  | some c =>
    obtain ⟨e, done⟩ := c
    rw [hl] at hcurrent
    obtain ⟨⟨e', done'⟩, hk, heq⟩ := Option.map_eq_some_iff.mp hcurrent
    obtain ⟨rfl, hdone⟩ : e' = e ∧ done' + n = done + m := by simpa using heq
    rw [hk, h.queue]
    by_cases hlt : done < n + t
    · have hlt' : done' < m + t := by omega
      simp only [if_pos hlt, if_pos hlt']
      exact (h.finish e' done done').take rfl hdone hstop
    · have hlt' : ¬ done' < m + t := by omega
      simp only [if_neg hlt, if_neg hlt']
      exact h

/-- Both subscribers broke down on the same events, and did not on the same other ones. -/
theorem Matches.map_event_filter (h : Matches n l m k) (p : Bool → Bool) :
    (k.handled.filter fun h => p h.broken).map Handling.event =
      (l.handled.filter fun h => p h.broken).map Handling.event := by
  have hfilter : ∀ l : Lane, (l.handled.filter fun h => p h.broken).map Handling.event =
      (l.outcomes.filter fun o => p o.2).map Prod.fst := by
    intro l
    rw [Lane.outcomes, List.filter_map, List.map_map]
    rfl
  rw [hfilter, hfilter, h.outcomes]

/-- What is handled takes both lanes the same time. -/
theorem Matches.map_remaining (h : Matches n l m k) :
    k.current.map (fun c => (c.1, c.2 - m)) = l.current.map (fun c => (c.1, c.2 - n)) := by
  have hcurrent := h.current
  cases hl : l.current with
  | none =>
    rw [hl] at hcurrent
    rw [Option.map_eq_none_iff.mp hcurrent]
    rfl
  | some c =>
    rw [hl] at hcurrent
    obtain ⟨c', hk, heq⟩ := Option.map_eq_some_iff.mp hcurrent
    obtain ⟨hevent, hdone⟩ := Prod.mk.inj heq
    have hremaining : c'.2 - m = c.2 - n := by omega
    rw [hk, Option.map_some, Option.map_some, hevent, hremaining]

/-! ## Lanes that have handled all they held -/

theorem map_outcome_handleAll (s : Subscriber) (free : Nat) (es : List Event) :
    (s.handleAll free es).map Handling.outcome =
      es.map fun e => (e, s.breaksOn.contains e.kind) := by
  induction es generalizing free with
  | nil => rfl
  | cons e es ih =>
    rw [Subscriber.handleAll, List.map_cons, ih]
    rfl

theorem map_outcome_timetable (l : Lane) (n : Nat) : (l.timetable n).map Handling.outcome =
    l.outcomes ++ ((l.current.map Prod.fst).toList ++ l.queued).map
      fun e => (e, l.subscriber.breaksOn.contains e.kind) := by
  rw [timetable, List.map_append, List.map_append, map_outcome_handleAll, List.map_append,
    List.append_assoc]
  cases l.current <;> rfl

/-- What will become of the events of a lane does not depend on the clock. -/
theorem Matches.map_outcome_timetable (h : Matches n l m k) :
    (k.timetable m).map Handling.outcome = (l.timetable n).map Handling.outcome := by
  have hqueued : k.queued = l.queued := by rw [queued, queued, h.queue]
  have hcurrent : k.current.map Prod.fst = l.current.map Prod.fst := by
    have hfst := congrArg (Option.map Prod.fst) h.current
    simpa [Option.map_map, Function.comp_def] using hfst
  rw [Lane.map_outcome_timetable, Lane.map_outcome_timetable, h.outcomes, h.isLike.breaksOn,
    hqueued, hcurrent]

/-- Two lanes that proceed until they are idle. -/
theorem Matches.idle (h : Matches n l m k) (hl : Proceeds n l now l') (hk : Proceeds m k now' k')
    (hlidle : l'.IsIdle) (hkidle : k'.IsIdle) : Matches now l' now' k' where
  isLike := by
    rw [hk.subscriber, hl.subscriber]
    exact h.isLike
  queue := by rw [hkidle.queue, hlidle.queue]
  dropped := by rw [hk.dropped, hl.dropped, h.dropped]
  outcomes := by
    rw [Lane.outcomes, Lane.outcomes, ← hkidle.timetable_eq now', ← hlidle.timetable_eq now,
      hk.timetable, hl.timetable]
    exact h.map_outcome_timetable
  current := by rw [hkidle.current, hlidle.current]; rfl

/-! ## Reports -/

/-- What is told of a lane behind an action. -/
theorem map_told_reports (l l' : Lane) (now : Nat) : (l.reports now l').map Notice.told =
    ((l'.dropped.drop l.dropped.length).map fun e => (e.kind, .dropped)) ++
      ((l'.outcomes.drop l.outcomes.length).filter fun o => o.2).map
        fun o => (o.1.kind, .broken) := by
  have hlength : l.outcomes.length = l.handled.length := by simp [outcomes]
  rw [reports, Lanes.breakNotices, List.map_append, List.map_map, List.map_map, hlength, outcomes,
    ← List.map_drop, List.filter_map, List.map_map]
  rfl

/-- Of two lanes that are in the same state before and behind an action the same is told. -/
theorem Matches.map_told_reports (h : Matches n l m k) (h' : Matches now l' now' k') (t t' : Nat) :
    (k.reports t k').map Notice.told = (l.reports t' l').map Notice.told := by
  rw [Lane.map_told_reports, Lane.map_told_reports, h.dropped, h.outcomes, h'.dropped, h'.outcomes]

end Lane

/-! ## Lanes in two sets -/

namespace Lanes

variable {s s' : Lanes} {subscribers subscribers' : List Subscriber} {i j : Nat} {l k : Lane}
  {sub sub' : Subscriber}

/-- What can be seen of a lane. -/
structure View where
  /-- The events that the subscriber got through with, in order. -/
  seen : List Event
  /-- The events that it broke down on, in order. -/
  broken : List Event
  /-- The events that were dropped, in order. -/
  dropped : List Event
  /-- The events that wait in the queue, in order. -/
  waiting : List Event
  /-- The event that is handled, and how long that will still take. -/
  current : Option (Event × Nat)
  /-- What was reported: the kinds of the events and what befell them, in order. -/
  reported : List (EventKind × Mishap)
  deriving DecidableEq, Repr

/-- What can be seen of the lane at a place after some actions. -/
def view (subscribers : List Subscriber) (i : Nat) (actions : List Action) : Option View :=
  (after subscribers actions).lanes[i]?.map fun l =>
    { seen := (l.handled.filter fun h => !h.broken).map Handling.event
      broken := (l.handled.filter Handling.broken).map Handling.event
      dropped := l.dropped
      waiting := l.queued
      current := l.current.map fun c => (c.1, c.2 - (after subscribers actions).now)
      reported := (records subscribers i actions).map Notice.told }

/-- An action keeps lanes in the same state. -/
theorem exists_matches_perform (hs : ∀ l ∈ s.lanes, l.IsRegular s.now)
    (hs' : ∀ l ∈ s'.lanes, l.IsRegular s'.now) (hl : s.lanes[i]? = some l)
    (hk : s'.lanes[j]? = some k) (h : l.Matches s.now s'.now k) (a : Action) :
    ∃ l' k', (s.perform a).lanes[i]? = some l' ∧ (s'.perform a).lanes[j]? = some k' ∧
      l'.Matches (s.perform a).now (s'.perform a).now k' := by
  cases a with
  | emit e => exact ⟨_, _, getElem?_emit hl e, getElem?_emit hk e, h.offer e⟩
  | sleep time =>
    have hnow : ∀ s : Lanes, (s.perform (.sleep time)).now = s.now + time :=
      fun s => Nat.max_eq_right (Nat.le_add_right ..)
    refine ⟨_, _, getElem?_advance hl _, getElem?_advance hk _, ?_⟩
    rw [hnow, hnow]
    exact h.run time
  | flush =>
    obtain ⟨l', hl', hlproceeds⟩ := exists_of_getElem? (goesOn_flush hs).proceeds hl
    obtain ⟨k', hk', hkproceeds⟩ := exists_of_getElem? (goesOn_flush hs').proceeds hk
    have hlidle := isIdle_flush s l' (List.mem_of_getElem? hl')
    have hkidle := isIdle_flush s' k' (List.mem_of_getElem? hk')
    exact ⟨l', k', hl', hk', h.idle hlproceeds hkproceeds hlidle hkidle⟩

/-- Two lanes of subscribers that handle events alike, after the same actions. -/
theorem exists_matches (hi : subscribers[i]? = some sub) (hj : subscribers'[j]? = some sub')
    (hlike : sub'.IsLike sub) (actions : List Action) :
    ∃ l k, (after subscribers actions).lanes[i]? = some l ∧
      (after subscribers' actions).lanes[j]? = some k ∧
      l.Matches (after subscribers actions).now (after subscribers' actions).now k ∧
      (records subscribers' j actions).map Notice.told =
        (records subscribers i actions).map Notice.told := by
  induction actions using List.reverseRecOn with
  | nil =>
    have hlane : ∀ {subs : List Subscriber} {i : Nat} {sub : Subscriber}, subs[i]? = some sub →
        (after subs []).lanes[i]? = some { subscriber := sub } := by
      intro subs i sub hi
      show (List.map _ _)[i]? = _
      rw [List.getElem?_map, hi]
      rfl
    exact ⟨_, _, hlane hi, hlane hj, Lane.matches_new hlike, rfl⟩
  | append_singleton actions a ih =>
    obtain ⟨l, k, hl, hk, hmatches, hrecords⟩ := ih
    obtain ⟨l', k', hl', hk', hmatches'⟩ :=
      exists_matches_perform (isRegular_after _ _) (isRegular_after _ _) hl hk hmatches a
    rw [after_concat, after_concat, records_concat, records_concat, List.map_append,
      List.map_append, getElem?_reportsOf hl hl', getElem?_reportsOf hk hk', hrecords,
      hmatches.map_told_reports hmatches']
    exact ⟨l', k', hl', hk', hmatches', rfl⟩

theorem view_eq_none (hi : subscribers[i]? = none) (actions : List Action) :
    view subscribers i actions = none := by
  rw [← subscriber_after subscribers actions, List.getElem?_map, Option.map_eq_none_iff] at hi
  rw [view, hi]
  rfl

/-- Lanes of subscribers that handle events alike show the same in two sets. -/
theorem view_congr (hi : subscribers[i]? = some sub) (hj : subscribers'[j]? = some sub')
    (hlike : sub'.IsLike sub) (actions : List Action) :
    view subscribers' j actions = view subscribers i actions := by
  obtain ⟨l, k, hl, hk, hmatches, hrecords⟩ := exists_matches hi hj hlike actions
  have hqueued : k.queued = l.queued := by rw [Lane.queued, Lane.queued, hmatches.queue]
  have hseen : (k.handled.filter fun h => !h.broken).map Handling.event =
      (l.handled.filter fun h => !h.broken).map Handling.event :=
    hmatches.map_event_filter (!·)
  have hbroken : (k.handled.filter Handling.broken).map Handling.event =
      (l.handled.filter Handling.broken).map Handling.event :=
    hmatches.map_event_filter id
  rw [view, view, hl, hk, hrecords, Option.map_some, Option.map_some, hmatches.dropped, hqueued,
    hseen, hbroken, hmatches.map_remaining]

/-- The reports of a set of one lane are those about it. -/
theorem notices_alone (sub : Subscriber) (actions : List Action) :
    (after [sub] actions).notices = records [sub] 0 actions := by
  have hperm := notices_after [sub] actions
  have hlength : (records [sub] 0 actions).length = (after [sub] actions).notices.length := by
    rw [hperm.length_eq]
    simp
  exact ((records_sublist [sub] 0 actions).eq_of_length hlength).symm

/-- What a lane shows that is the only one of its set, if its queue has room for `capacity` events,
    and its subscriber handles an event in the time `pause` and breaks down on the kinds
    `breaksOn`. -/
def viewAlone (capacity pause : Nat) (breaksOn : List EventKind) (actions : List Action) :
    Option View :=
  view [{ name := "", capacity, pause, breaksOn }] 0 actions

/-- The lane at a place of a set behaves as if it was the only one. -/
structure IsSeparate (subscribers : List Subscriber) (i : Nat) (actions : List Action) : Prop where
  /-- It shows what a lane shows that is the only one. -/
  view_eq : view subscribers i actions =
    subscribers[i]?.bind fun sub => viewAlone sub.capacity sub.pause sub.breaksOn actions
  /-- What was reported about it was reported in that order. -/
  recorded : (records subscribers i actions).Sublist (after subscribers actions).notices
  /-- If no other subscriber has the name of its own, the reports under that name are those of a
      set where it is the only one. -/
  reported : ∀ sub, subscribers[i]? = some sub →
    (∀ j other, j ≠ i → subscribers[j]? = some other → other.name ≠ sub.name) →
    ((after subscribers actions).notices.filter fun n => n.subscriber = sub.name).map Notice.told =
      (after [sub] actions).notices.map Notice.told
  /-- An event is emitted at once, whatever lanes there are. -/
  now_emit : ∀ e, (after subscribers (actions ++ [.emit e])).now = (after subscribers actions).now
  /-- Time passes as it is asked for, whatever lanes there are. -/
  now_sleep : ∀ time, (after subscribers (actions ++ [.sleep time])).now =
    (after subscribers actions).now + time

/-- All lanes behave as if they were the only ones: what a lane shows and what is reported about it
    depends on its subscriber and on the actions alone. -/
theorem after_separate (subscribers : List Subscriber) (i : Nat) (actions : List Action) :
    IsSeparate subscribers i actions where
  view_eq := by
    cases hi : subscribers[i]? with
    | none => exact view_eq_none hi actions
    | some sub =>
      let alone : Subscriber := { sub with name := "" }
      have hlike : sub.IsLike alone := ⟨rfl, rfl, rfl⟩
      exact view_congr (rfl : [alone][0]? = some alone) hi hlike actions
  recorded := records_sublist subscribers i actions
  reported := by
    intro sub hi hname
    obtain ⟨l, k, -, -, -, hrecords⟩ :=
      exists_matches hi (rfl : [sub][0]? = some sub) ⟨rfl, rfl, rfl⟩ actions
    rw [filter_notices_after hi hname, notices_alone, hrecords]
  now_emit := by
    intro e
    rw [after_concat]
    rfl
  now_sleep := by
    intro time
    rw [after_concat]
    exact Nat.max_eq_right (Nat.le_add_right ..)

end Lanes

end Steward.Delivery
