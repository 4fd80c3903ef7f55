import Steward.Proofs.Delivery.Reporting

/-!
# How a lane hands over events

A lane drops the events that meet a full queue and hands over all others, one at a time and in the
order in which they were emitted. It hands over an event as soon as the subscriber is done with the
one before, whether or not the subscriber broke down on it. Each event that was dropped and each
breakdown is reported once.

Results:
* `Lanes.exists_isBooked`: the books of a lane, kept by every action.
* `Lane.IsBooked.handsOver`: what the books say about a lane at any moment.
* `Lanes.after_delivers`: what a set of lanes does with the events, at all moments.
-/

namespace Steward.Delivery

/-- The event that an action emits. -/
def Action.emitted? : Action → Option Event
  | emit e => some e
  | _ => none

namespace Subscriber

/-- The offers that meet a full queue. -/
def lost (s : Subscriber) (os : List Offer) : List Offer :=
  os.filter fun o => o.waiting = max s.capacity 1

/-- The offers that do not meet a full queue. -/
def kept (s : Subscriber) (os : List Offer) : List Offer :=
  os.filter fun o => o.waiting ≠ max s.capacity 1

/-- What comes of offers that are taken one after the other, each as soon as it is made and the
    subscriber is free, which it is at some time. -/
def schedule (s : Subscriber) : (free : Nat) → List Offer → List Handling
  | _, [] => []
  | free, o :: os =>
    let done := max free o.time + s.pause
    s.handle o.event done :: s.schedule done os

variable {s : Subscriber} {os : List Offer} {o : Offer} {free : Nat} {h : Handling}

theorem schedule_concat (s : Subscriber) (free : Nat) (os : List Offer) (o : Offer) :
    s.schedule free (os ++ [o]) = s.schedule free os ++
      [s.handle o.event (max (latest free (s.schedule free os)) o.time + s.pause)] := by
  induction os generalizing free with
  | nil => rfl
  | cons p os ih =>
    have hlatest : latest free (s.schedule free (p :: os)) =
        latest (max free p.time + s.pause) (s.schedule (max free p.time + s.pause) os) := by
      have hlater : max free (max free p.time + s.pause) = max free p.time + s.pause := by omega
      show latest (max free (max free p.time + s.pause)) _ = _
      rw [hlater]
    rw [hlatest, List.cons_append, schedule, schedule]
    exact congrArg _ (ih _)

theorem map_event_schedule (s : Subscriber) (free : Nat) (os : List Offer) :
    (s.schedule free os).map Handling.event = os.map Offer.event := by
  induction os generalizing free with
  | nil => rfl
  | cons o os ih => simp [schedule, handle, ih]

theorem broken_of_mem_schedule (h' : h ∈ s.schedule free os) :
    h.broken = s.breaksOn.contains h.event.kind := by
  induction os generalizing free with
  | nil => simp [schedule] at h'
  | cons o os ih =>
    rw [schedule, List.mem_cons] at h'
    rcases h' with rfl | h'
    · rfl
    · exact ih h'

theorem length_kept_add_lost (s : Subscriber) (os : List Offer) :
    (s.kept os).length + (s.lost os).length = os.length := by
  have hsplit := os.length_eq_length_filter_add fun o => o.waiting = max s.capacity 1
  simp only [kept, lost, ne_eq, decide_not]
  omega

theorem lost_concat (s : Subscriber) (os : List Offer) (o : Offer) :
    s.lost (os ++ [o]) = s.lost os ++ if o.waiting = max s.capacity 1 then [o] else [] := by
  rw [lost, List.filter_append, List.filter_singleton]
  simp [lost]

theorem kept_concat (s : Subscriber) (os : List Offer) (o : Offer) :
    s.kept (os ++ [o]) = s.kept os ++ if o.waiting = max s.capacity 1 then [] else [o] := by
  rw [kept, List.filter_append, List.filter_singleton]
  by_cases h : o.waiting = max s.capacity 1 <;> simp [kept, h]

end Subscriber

/-! ## The books of a lane -/

namespace Lane

/-- What the books say at the time `now` of a lane of the subscriber `sub` to which `os` was offered
    and of which `rs` was reported. -/
structure IsBooked (sub : Subscriber) (os : List Offer) (rs : List Notice) (now : Nat) (l : Lane) :
    Prop extends IsRegular now l where
  subscriber : l.subscriber = sub
  waiting : ∀ o ∈ os, o.waiting ≤ max sub.capacity 1
  dropped : l.dropped = (sub.lost os).map Offer.event
  timetable : l.timetable now = sub.schedule 0 (sub.kept os)
  dropReports : rs.filter (fun n => n.mishap = .dropped) =
    (sub.lost os).map fun o => ⟨sub.name, o.event.kind, .dropped, o.time⟩
  breakReports : rs.filter (fun n => n.mishap = .broken) =
    (l.handled.filter Handling.broken).map fun h => ⟨sub.name, h.event.kind, .broken, h.time⟩

variable {sub : Subscriber} {os : List Offer} {rs : List Notice} {start now : Nat} {l l' : Lane}

theorem isBooked_new (sub : Subscriber) : IsBooked sub [] [] 0 { subscriber := sub } where
  toIsRegular := isRegular_new sub
  subscriber := rfl
  waiting := by simp
  dropped := rfl
  timetable := rfl
  dropReports := rfl
  breakReports := rfl

theorem isFull_iff (h : l.queue.length ≤ l.limit) :
    l.isFull = true ↔ l.queue.length = max l.subscriber.capacity 1 := by
  unfold limit at h
  unfold isFull limit
  rw [decide_eq_true_iff]
  omega

theorem IsBooked.waiting_offer (h : l.IsBooked sub os rs now) (e : Event) :
    ∀ o ∈ os ++ [(⟨e, now, l.queue.length⟩ : Offer)], o.waiting ≤ max sub.capacity 1 := by
  have hfits := h.fits
  rw [limit, h.subscriber] at hfits
  exact List.forall_mem_append.mpr ⟨h.waiting, by simpa using hfits⟩

/-- An event that meets a full queue is dropped and reported. -/
theorem IsBooked.offer_of_isFull (h : l.IsBooked sub os rs now) (hfull : l.isFull = true)
    (e : Event) : (l.offer e).IsBooked sub (os ++ [⟨e, now, l.queue.length⟩])
      (rs ++ [⟨sub.name, e.kind, .dropped, now⟩]) now := by
  have hmet : l.queue.length = max sub.capacity 1 := by
    rw [← h.subscriber]
    exact (isFull_iff h.fits).mp hfull
  have hoffer : l.offer e = { l with dropped := l.dropped ++ [e] } := if_pos hfull
  refine ⟨h.toIsRegular.offer e, (l.subscriber_offer e).trans h.subscriber, h.waiting_offer e,
    ?_, ?_, ?_, ?_⟩
  · rw [Subscriber.lost_concat, if_pos hmet, List.map_append, ← h.dropped, hoffer]
    rfl
  · rw [Subscriber.kept_concat, if_pos hmet, List.append_nil, ← h.timetable, hoffer]
    rfl
  · rw [Subscriber.lost_concat, if_pos hmet, List.map_append, List.filter_append, h.dropReports]
    rfl
  · rw [List.filter_append, h.breakReports, l.handled_offer]
    simp

/-- An event that does not is accepted, and will be handled behind all others. -/
theorem IsBooked.offer_of_not_isFull (h : l.IsBooked sub os rs now) (hroom : l.isFull = false)
    (e : Event) : (l.offer e).IsBooked sub (os ++ [⟨e, now, l.queue.length⟩]) rs now := by
  have hunmet : ¬ l.queue.length = max sub.capacity 1 := by
    rw [← h.subscriber, ← isFull_iff h.fits, hroom]
    simp
  have hoffer : l.offer e = l.enqueue (.event e) := if_neg (by simp [hroom])
  have hidle : l.idleAt now = max (latest 0 (sub.schedule 0 (sub.kept os))) now := by
    rw [idleAt_eq_latest h.toIsOnTime, h.timetable, latest_eq_max, Nat.max_comm]
  refine ⟨h.toIsRegular.offer e, (l.subscriber_offer e).trans h.subscriber, h.waiting_offer e,
    ?_, ?_, ?_, ?_⟩
  · rw [Subscriber.lost_concat, if_neg hunmet, List.append_nil, ← h.dropped, hoffer]
    rfl
  · rw [timetable_offer hroom, hidle, h.timetable, h.subscriber, Subscriber.kept_concat,
      if_neg hunmet, Subscriber.schedule_concat]
  · rw [Subscriber.lost_concat, if_neg hunmet, List.append_nil, h.dropReports]
  · rw [h.breakReports, l.handled_offer]

/-- Offering an event keeps the books. -/
theorem IsBooked.offer (h : l.IsBooked sub os rs now) (e : Event) :
    (l.offer e).IsBooked sub (os ++ [⟨e, now, l.queue.length⟩]) (rs ++ l.reports now (l.offer e))
      now := by
  rw [Lanes.reports_offer, h.subscriber]
  cases hfull : l.isFull with
  | true => exact h.offer_of_isFull hfull e
  | false =>
    rw [if_neg (by simp), List.append_nil]
    exact h.offer_of_not_isFull hfull e

/-- A lane that proceeds keeps the books. -/
theorem IsBooked.proceeds (h : l.IsBooked sub os rs start) (hl : l.Proceeds start now l')
    (hplain : l'.IsPlain) : l'.IsBooked sub os (rs ++ l.reports start l') now := by
  obtain ⟨news, hnews⟩ := hl.handled
  have hreports : l.reports start l' =
      (news.filter Handling.broken).map fun h => ⟨sub.name, h.event.kind, .broken, h.time⟩ := by
    rw [Lanes.reports_proceeds hl, Lanes.breakNotices, ← hnews, List.drop_left, hl.subscriber,
      h.subscriber]
  refine ⟨h.toIsRegular.proceeds hl hplain, hl.subscriber.trans h.subscriber, h.waiting,
    hl.dropped.trans h.dropped, hl.timetable.trans h.timetable, ?_, ?_⟩
  · rw [List.filter_append, h.dropReports, hreports]
    simp [List.filter_map]
  · rw [List.filter_append, h.breakReports, hreports, ← hnews, List.filter_append, List.map_append]
    simp [List.filter_map]

/-! ## What the books say -/

/-- What has become at the time `now` of the events that were offered to a lane of the subscriber
    `sub`. -/
structure HandsOver (sub : Subscriber) (os : List Offer) (now : Nat) (l : Lane) : Prop where
  /-- The queue never holds more than it has room for. -/
  fits : l.queue.length ≤ max sub.capacity 1
  /-- What met a full queue was dropped, and nothing else. -/
  dropped : l.dropped = (sub.lost os).map Offer.event
  /-- All else was handled, is handled or waits, in order and each event once. -/
  accepted : l.handled.map Handling.event ++ (l.current.map Prod.fst).toList ++ l.queued =
    (sub.kept os).map Offer.event
  /-- When the subscriber was, is and will be done with it. -/
  timetable : l.timetable now = sub.schedule 0 (sub.kept os)
  /-- The subscriber gets an event only when it is done with the one before. -/
  spaced : (l.timetable now).Pairwise fun h k => h.time + sub.pause ≤ k.time
  /-- It broke down on the events of the kinds that it breaks down on. -/
  broken : ∀ h ∈ l.handled, h.broken = sub.breaksOn.contains h.event.kind
  /-- All events are accounted for. -/
  balance : l.handled.length + l.current.toList.length + l.queued.length + l.dropped.length =
    os.length

theorem queue_eq_of_isPlain (h : l.IsPlain) : l.queue = l.queued.map .event := by
  unfold IsPlain at h
  unfold queued
  generalize l.queue = queue at h
  induction queue with
  | nil => rfl
  | cons x queue ih =>
    rw [List.mem_cons, not_or] at h
    cases x with
    | marker => exact absurd rfl h.1
    | event e => rw [filterMap_event_cons, List.map_cons, ← ih h.2]

/-- A lane that goes on hands over what was offered to it. -/
theorem IsBooked.handsOver (h : l.IsBooked sub os rs start) (hl : l.Proceeds start now l') :
    l'.HandsOver sub os now := by
  have hsubscriber := hl.subscriber.trans h.subscriber
  have htimetable := hl.timetable.trans h.timetable
  have haccepted : l'.accepted = (sub.kept os).map Offer.event := by
    rw [← map_event_timetable l' now, htimetable, Subscriber.map_event_schedule]
  have hdropped := hl.dropped.trans h.dropped
  refine ⟨?_, hdropped, haccepted, htimetable, ?_, ?_, ?_⟩
  · have hfits := hl.fits h.fits
    rwa [limit, hsubscriber] at hfits
  · rw [hl.timetable, ← h.subscriber]
    exact h.spaced
  · intro x hx
    have hmem := (l'.handled_prefix_timetable now).subset hx
    rw [htimetable] at hmem
    exact Subscriber.broken_of_mem_schedule hmem
  · have hlength := congrArg List.length haccepted
    have hsplit := sub.length_kept_add_lost os
    simp only [Lane.accepted, handed, List.length_append, List.length_map] at hlength
    rw [hdropped, List.length_map]
    cases hc : l'.current <;> simp [hc] at hlength ⊢ <;> omega

end Lane

/-! ## All lanes -/

namespace Lanes

variable {subscribers : List Subscriber} {s : Lanes} {sub : Subscriber} {i t : Nat}

theorem offered_eq (hi : subscribers[i]? = some sub) (actions : List Action) :
    (offers subscribers i actions).map Offer.event = actions.filterMap Action.emitted? := by
  induction actions using List.reverseRecOn with
  | nil => rfl
  | append_singleton actions a ih =>
    have hlane : ((after subscribers actions).lanes[i]?).map Lane.subscriber = some sub := by
      rw [← List.getElem?_map, subscriber_after, hi]
    obtain ⟨l, hl, -⟩ := Option.map_eq_some_iff.mp hlane
    rw [offers_concat, List.map_append, ih, List.filterMap_append]
    congr 1
    cases a with
    | emit e => simp [offersOf, hl, Action.emitted?]
    | flush => rfl
    | sleep time => rfl

/-- Every action keeps the books of every lane. -/
theorem exists_isBooked (hi : subscribers[i]? = some sub) (actions : List Action) :
    ∃ l, (after subscribers actions).lanes[i]? = some l ∧
      l.IsBooked sub (offers subscribers i actions) (records subscribers i actions)
        (after subscribers actions).now := by
  induction actions using List.reverseRecOn with
  | nil =>
    refine ⟨{ subscriber := sub }, ?_, Lane.isBooked_new sub⟩
    show (subscribers.map _)[i]? = _
    rw [List.getElem?_map, hi]
    rfl
  | append_singleton actions a ih =>
    obtain ⟨l, hl, hbooked⟩ := ih
    have hregular := isRegular_after subscribers actions
    rw [offers_concat, records_concat, after_concat]
    obtain ⟨e, rfl⟩ | ⟨hoffers, hgo⟩ := perform_cases hregular a
    · have hl' := getElem?_emit hl e
      refine ⟨l.offer e, hl', ?_⟩
      rw [getElem?_reportsOf hl hl', offersOf, hl]
      exact hbooked.offer e
    · obtain ⟨l', hl', hproceeds⟩ := exists_of_getElem? hgo.proceeds hl
      refine ⟨l', hl', ?_⟩
      rw [getElem?_reportsOf hl hl', hoffers, List.append_nil]
      exact hbooked.proceeds hproceeds (hgo.isPlain l' (List.mem_of_getElem? hl'))

/-- What a set of lanes for some subscribers does with the events that are emitted by some
    actions. -/
structure Delivers (subscribers : List Subscriber) (actions : List Action) : Prop where
  /-- All that is emitted is offered to each lane, and no queue is ever more than full. -/
  offered : ∀ (i : Nat) (sub : Subscriber), subscribers[i]? = some sub →
    (offers subscribers i actions).map Offer.event = actions.filterMap Action.emitted? ∧
      ∀ o ∈ offers subscribers i actions, o.waiting ≤ max sub.capacity 1
  /-- What has become of it behind the actions. All that then waits in the queue are events. -/
  behind : ∀ (i : Nat) (sub : Subscriber), subscribers[i]? = some sub →
    ∃ l : Lane, (after subscribers actions).lanes[i]? = some l ∧ l.queue = l.queued.map .event ∧
      l.HandsOver sub (offers subscribers i actions) (after subscribers actions).now
  /-- What has become of it up to any later moment if the caller then lets time pass or waits for a
      flush: all that was to be done before that moment was handled. -/
  later : ∀ (i : Nat) (sub : Subscriber) (t : Nat) (lanes : List Lane),
    subscribers[i]? = some sub → (after subscribers actions).now < t →
    lanes = ((after subscribers actions).advance t).lanes ∨
      lanes = (after subscribers actions).flushing t →
    ∃ l : Lane, lanes[i]? = some l ∧ l.HandsOver sub (offers subscribers i actions) t ∧
      l.handled = (sub.schedule 0 (sub.kept (offers subscribers i actions))).filter
        fun h => h.time < t
  /-- The last moment of a flush is the one at which the caller goes on. -/
  flushed : (after subscribers actions).flushing
      ((after subscribers (actions ++ [.flush])).now + 1) =
    (after subscribers (actions ++ [.flush])).lanes
  /-- Each event that was dropped is reported once, and so is each breakdown. -/
  reported : ∀ (i : Nat) (sub : Subscriber) (l : Lane), subscribers[i]? = some sub →
    (after subscribers actions).lanes[i]? = some l →
    (records subscribers i actions).filter (fun n => n.mishap = .dropped) =
      (sub.lost (offers subscribers i actions)).map
        (fun o => ⟨sub.name, o.event.kind, .dropped, o.time⟩) ∧
    (records subscribers i actions).filter (fun n => n.mishap = .broken) =
      (l.handled.filter Handling.broken).map
        (fun h => ⟨sub.name, h.event.kind, .broken, h.time⟩)
  /-- Nothing else is reported. -/
  complete : (after subscribers actions).notices.Perm
    ((List.range subscribers.length).flatMap fun i => records subscribers i actions)

/-- A set of lanes delivers what is emitted: each lane drops exactly what meets a full queue and
    hands over all else one by one in order, at all moments and whatever its subscriber breaks down
    on. -/
theorem after_delivers (subscribers : List Subscriber) (actions : List Action) :
    Delivers subscribers actions := by
  have hregular := isRegular_after subscribers actions
  refine ⟨?_, ?_, ?_, ?_, ?_, notices_after subscribers actions⟩
  · intro i sub hi
    obtain ⟨l, -, hbooked⟩ := exists_isBooked hi actions
    exact ⟨offered_eq hi actions, hbooked.waiting⟩
  · intro i sub hi
    obtain ⟨l, hl, hbooked⟩ := exists_isBooked hi actions
    exact ⟨l, hl, Lane.queue_eq_of_isPlain hbooked.isPlain, hbooked.handsOver (.refl _ l)⟩
  · intro i sub t lanes hi ht hlanes
    have hworks : List.Forall₂ (fun l l' => l.Proceeds (after subscribers actions).now t l' ∧
        l'.handled = (l.timetable (after subscribers actions).now).filter fun h => h.time < t)
        (after subscribers actions).lanes lanes := by
      rcases hlanes with rfl | rfl
      · exact worksOff_advance hregular ht
      · exact worksOff_flushing hregular ht
    obtain ⟨l, hl, hbooked⟩ := exists_isBooked hi actions
    obtain ⟨l', hl', hproceeds, hhandled⟩ := exists_of_getElem? hworks hl
    rw [hbooked.timetable] at hhandled
    exact ⟨l', hl', hbooked.handsOver hproceeds, hhandled⟩
  · rw [after_concat]
    exact flushing_now_flush hregular
  · intro i sub l hi hl
    obtain ⟨k, hk, hbooked⟩ := exists_isBooked hi actions
    obtain rfl : l = k := Option.some.inj (hl.symm.trans hk)
    exact ⟨hbooked.dropReports, hbooked.breakReports⟩

end Lanes

end Steward.Delivery
