import Steward.Proofs.Delivery.Books

/-!
# Events that arrive

If nothing is left from before, and no more events are published than the bus holds, the bus gives
up none of them. If no more of them are forwarded to a subscriber than fit into its queue, the
subscriber accepts all of them in order, and none is dropped; how the dispatcher and the lanes take
turns makes no difference.

Results:
* `Dispatcher.steps_carries`: what passes the bus.
* `Dispatcher.steps_receives`: what arrives in a lane.
* `Dispatcher.handled_eq`: what a subscriber has handled in the end.
-/

namespace Steward.Delivery

/-! ## In a lane -/

/-- What was offered to a lane whose queue was empty before. -/
structure Lane.Receives (before : Lane) (offered : List Event) (l : Lane) : Prop where
  subscriber : l.subscriber = before.subscriber
  isPlain : l.IsPlain
  handed : before.handed <+: l.handed
  arrived : offered.length ≤ l.limit →
    l.dropped = before.dropped ∧ l.accepted = before.accepted ++ offered

namespace Lane

variable {before l l' : Lane} {offered : List Event} {now : Nat}

theorem receives_nil (h : l.IsPlain) : l.Receives [] l :=
  ⟨rfl, h, List.prefix_refl _, fun _ => ⟨rfl, by rw [List.append_nil]⟩⟩

theorem Receives.works (h : before.Receives offered l) (hworks : l.Works now l') :
    before.Receives offered l' where
  subscriber := hworks.subscriber.trans h.subscriber
  isPlain := hworks.isPlain h.isPlain
  handed := h.handed.trans hworks.handed
  arrived := by
    rw [hworks.dropped, hworks.accepted, limit, hworks.subscriber]
    exact h.arrived

/-- As long as all that was offered fits into the queue, there is room for another event. -/
theorem Receives.isFull_eq_false (h : before.Receives offered l) (hqueue : before.queue = [])
    (hlt : offered.length < l.limit) : l.isFull = false := by
  have haccepted : l.accepted.length = before.handed.length + offered.length := by
    rw [(h.arrived (Nat.le_of_lt hlt)).2, accepted_of_queue hqueue, List.length_append]
  have hhanded := h.handed.length_le
  have hlength := length_handed_add_queue h.isPlain
  refine decide_eq_false ?_
  omega

theorem Receives.offer (h : before.Receives offered l) (hqueue : before.queue = []) (e : Event) :
    before.Receives (offered ++ [e]) (l.offer e) where
  subscriber := (l.subscriber_offer e).trans h.subscriber
  isPlain := isPlain_offer h.isPlain e
  handed := by
    rw [l.handed_offer]
    exact h.handed
  arrived hle := by
    rw [limit, l.subscriber_offer, List.length_append, List.length_singleton] at hle
    have hroom := h.isFull_eq_false hqueue hle
    obtain ⟨hdropped, haccepted⟩ := h.arrived (Nat.le_of_succ_le hle)
    obtain ⟨hfull, -, -⟩ | ⟨-, hdropped', haccepted'⟩ := l.offer_cases e
    · rw [hroom] at hfull
      exact absurd hfull (by simp)
    · rw [hdropped', haccepted', hdropped, haccepted, List.append_assoc]
      exact ⟨rfl, rfl⟩

end Lane

/-! ## Through the dispatcher -/

/-- What was published and what was forwarded since the bus was empty. -/
structure Dispatcher.Carries (before : Dispatcher) (news passed : List Event) (d : Dispatcher) :
    Prop where
  capacity : d.bus.capacity = before.bus.capacity
  published : d.published = before.published ++ news
  forwarded : d.forwarded = before.forwarded ++ passed
  fits : news.length ≤ before.bus.capacity → d.bus.missed = 0 ∧ passed ++ d.bus.held = news

namespace Dispatcher

variable {before d d' : Dispatcher} {news passed : List Event} {i : Nat} {lane : Lane}

theorem carries_nil (hheld : d.bus.held = []) (hmissed : d.bus.missed = 0) : d.Carries [] [] d where
  capacity := rfl
  published := (List.append_nil _).symm
  forwarded := (List.append_nil _).symm
  fits _ := ⟨hmissed, hheld⟩

/-- As long as no more was published than the bus holds, there is room for another event. -/
theorem Carries.put (h : before.Carries news passed d) {e : Event}
    (hput : d'.bus = d.bus.publish e) (hpublished : d'.published = d.published ++ [e])
    (hforwarded : d'.forwarded = d.forwarded) : before.Carries (news ++ [e]) passed d' where
  capacity := by
    rw [hput, Bus.capacity_publish]
    exact h.capacity
  published := by rw [hpublished, h.published, List.append_assoc]
  forwarded := hforwarded.trans h.forwarded
  fits hle := by
    rw [List.length_append, List.length_singleton] at hle
    obtain ⟨hmissed, heq⟩ := h.fits (Nat.le_of_succ_le hle)
    have hroom : d.bus.held.length < d.bus.capacity := by
      have hlength := congrArg List.length heq
      rw [List.length_append] at hlength
      rw [h.capacity]
      omega
    have hbus : d'.bus = { d.bus with held := d.bus.held ++ [e] } := hput.trans (if_pos hroom)
    rw [hbus, ← heq, List.append_assoc]
    exact ⟨hmissed, rfl⟩

/-- What was published passes the bus in order, unless it was more than the bus holds. -/
theorem Carries.step (h : before.Carries news passed d) (hstep : Step d d') :
    ∃ news passed, before.Carries news passed d' := by
  obtain ⟨hbus, hpublished, hforwarded, -⟩ | ⟨e, hput, hpublished, hforwarded, -⟩ |
    ⟨e, rest, -, hheld, hbus, hpublished, hforwarded, -⟩ |
    ⟨-, hbus, hpublished, hforwarded, -⟩ := hstep.cases_bus
  · refine ⟨news, passed, ⟨?_, hpublished.trans h.published, hforwarded.trans h.forwarded, ?_⟩⟩
    · rw [hbus]
      exact h.capacity
    · rw [hbus]
      exact h.fits
  · exact ⟨_, _, h.put hput hpublished hforwarded⟩
  · -- the event goes from the bus to what has passed
    refine ⟨news, passed ++ [e], ⟨?_, hpublished.trans h.published, ?_, fun hle => ?_⟩⟩
    · rw [hbus]
      exact h.capacity
    · rw [hforwarded, h.forwarded, List.append_assoc]
    · obtain ⟨hmissed, heq⟩ := h.fits hle
      rw [hbus, ← heq, hheld, List.append_assoc]
      exact ⟨hmissed, rfl⟩
  · refine ⟨news, passed, ⟨?_, hpublished.trans h.published, hforwarded.trans h.forwarded, ?_⟩⟩
    · rw [hbus]
      exact h.capacity
    · rw [hbus]
      exact fun hle => ⟨rfl, (h.fits hle).2⟩

theorem steps_carries (hheld : d.bus.held = []) (hmissed : d.bus.missed = 0) (h : Steps d d') :
    ∃ news passed, d.Carries news passed d' := by
  induction h with
  | refl => exact ⟨[], [], carries_nil hheld hmissed⟩
  | tail _ hstep ih =>
    obtain ⟨news, passed, hcarries⟩ := ih
    exact hcarries.step hstep

/-- What was forwarded arrives in a lane in order, unless it was more than fits into the queue. -/
theorem steps_receives (hlane : d.lanes.lanes[i]? = some lane) (hqueue : lane.queue = [])
    (h : Steps d d') : ∃ passed l, d'.forwarded = d.forwarded ++ passed ∧
      d'.lanes.lanes[i]? = some l ∧ lane.Receives passed l := by
  induction h with
  | refl =>
    exact ⟨[], lane, by simp, hlane, Lane.receives_nil (Lane.isPlain_of_queue hqueue)⟩
  | tail _ hstep ih =>
    obtain ⟨passed, l, hforwarded, hl, hreceives⟩ := ih
    obtain ⟨hlanes, hforwarded'⟩ | ⟨e, hlanes, hforwarded'⟩ |
      ⟨now, ls, hlanes, hforwarded', -, hworks⟩ := hstep.cases_lanes
    · rw [hlanes, hforwarded']
      exact ⟨passed, l, hforwarded, hl, hreceives⟩
    · rw [hlanes, hforwarded', hforwarded, List.append_assoc]
      refine ⟨passed ++ [e], l.offer e, rfl, ?_, hreceives.offer hqueue e⟩
      show (List.map _ _)[i]? = _
      rw [List.getElem?_map, hl]
      rfl
    · rw [hlanes, hforwarded']
      obtain ⟨l', hl', hwork⟩ := exists_of_getElem? hworks hl
      exact ⟨passed, l', hforwarded, hl', hreceives.works hwork⟩

/-- When the bus is empty again and the subscriber has handled all that it was handed, it has
    handled exactly what was published in addition to what it was handed before, if that fits on the
    bus and into its queue. -/
theorem handled_eq (hheld : d.bus.held = []) (hmissed : d.bus.missed = 0)
    (hlane : d.lanes.lanes[i]? = some lane) (hqueue : lane.queue = []) (h : Steps d d')
    (hpublished : d'.published = d.published ++ news) (hheld' : d'.bus.held = [])
    (hidle : ∀ l ∈ d'.lanes.lanes, l.IsIdle) (hbus : news.length ≤ d.bus.capacity)
    (hlimit : news.length ≤ lane.limit) :
    ∃ l, d'.lanes.lanes[i]? = some l ∧ l.handled.map Handling.event = lane.handed ++ news ∧
      l.dropped = lane.dropped := by
  obtain ⟨news', passed, hcarries⟩ := steps_carries hheld hmissed h
  obtain ⟨passed', l, hforwarded, hl, hreceives⟩ := steps_receives hlane hqueue h
  obtain rfl : news = news' :=
    List.append_cancel_left (hpublished.symm.trans hcarries.published)
  obtain rfl : passed' = passed :=
    List.append_cancel_left (hforwarded.symm.trans hcarries.forwarded)
  have hall : passed' = news := by
    have hfits := (hcarries.fits hbus).2
    rwa [hheld', List.append_nil] at hfits
  rw [hall] at hreceives
  have hlimit' : news.length ≤ l.limit := by
    rwa [Lane.limit, hreceives.subscriber]
  obtain ⟨hdropped, haccepted⟩ := hreceives.arrived hlimit'
  refine ⟨l, hl, ?_, hdropped⟩
  rw [← (hidle l (List.mem_of_getElem? hl)).accepted_eq, haccepted, Lane.accepted_of_queue hqueue]

end Dispatcher

end Steward.Delivery
