import Steward.Proofs.Delivery.LaneBooks

/-!
# The timetable of a lane

A subscriber takes the next event as soon as it is done with the one before. So when it is done with
an event is settled once the lane has accepted the event. What a lane has handled, what it handles
and what it will handle, each with its time, is the timetable of the lane. Neither running the lane
nor putting a marker into its queue changes it.

Results:
* `Lane.timetable_run`: running a lane keeps its timetable.
* `Lane.timetable_offer`: an event that is accepted is handled last.
* `Lane.IsOnTime.handled_run_eq`: what has been handled up to a moment.
* `Lane.idleAt_eq_latest`: a lane is idle after the last entry of its timetable.
* `Lane.proceeds_run`, `Lane.proceeds_mark`: what holds while a lane is run or gets a marker.
-/

namespace Steward.Delivery

/-! ## Handling events one after the other -/

namespace Subscriber

/-- What comes of an event that the subscriber is done with at some time. -/
def handle (s : Subscriber) (e : Event) (done : Nat) : Handling :=
  ⟨e, done, s.breaksOn.contains e.kind⟩

/-- What comes of events if the subscriber is free for the first of them at some time and handles
    them without a break. -/
def handleAll (s : Subscriber) : (free : Nat) → List Event → List Handling
  | _, [] => []
  | free, e :: es => s.handle e (free + s.pause) :: s.handleAll (free + s.pause) es

variable {s : Subscriber} {free : Nat} {es fs : List Event} {h : Handling}

@[simp] theorem handleAll_nil : s.handleAll free [] = [] := rfl

theorem handleAll_append : s.handleAll free (es ++ fs) =
    s.handleAll free es ++ s.handleAll (free + es.length * s.pause) fs := by
  induction es generalizing free with
  | nil => simp
  | cons e es ih =>
    have htime : free + s.pause + es.length * s.pause = free + (e :: es).length * s.pause := by
      rw [List.length_cons, Nat.succ_mul]
      omega
    rw [List.cons_append, handleAll, handleAll, ih, htime, List.cons_append]

@[simp] theorem map_event_handleAll : (s.handleAll free es).map Handling.event = es := by
  induction es generalizing free with
  | nil => rfl
  | cons e es ih => rw [handleAll, List.map_cons, ih]; rfl

theorem le_of_mem_handleAll (h' : h ∈ s.handleAll free es) : free + s.pause ≤ h.time := by
  induction es generalizing free with
  | nil => simp at h'
  | cons e es ih =>
    rw [handleAll, List.mem_cons] at h'
    rcases h' with rfl | h'
    · exact Nat.le_refl _
    · have hle := ih h'
      omega

end Subscriber

/-! ## The latest of several times -/

/-- The latest time at which something was handled, but `t` at least. -/
def latest (t : Nat) (hs : List Handling) : Nat := hs.foldl (fun t h => max t h.time) t

section
variable {t u : Nat} {hs ks : List Handling} {h : Handling}

@[simp] theorem latest_nil : latest t [] = t := rfl

theorem latest_cons : latest t (h :: hs) = latest (max t h.time) hs := rfl

theorem latest_append : latest t (hs ++ ks) = latest (latest t hs) ks := List.foldl_append

theorem latest_le_iff : latest t hs ≤ u ↔ t ≤ u ∧ ∀ h ∈ hs, h.time ≤ u := foldl_max_le_iff

theorem le_latest (t : Nat) (hs : List Handling) : t ≤ latest t hs :=
  (latest_le_iff.mp (Nat.le_refl _)).1

theorem le_latest_of_mem (t : Nat) (hh : h ∈ hs) : h.time ≤ latest t hs :=
  (latest_le_iff.mp (Nat.le_refl _)).2 h hh

theorem latest_eq_of_le (h : ∀ h ∈ hs, h.time ≤ t) : latest t hs = t :=
  Nat.le_antisymm (latest_le_iff.mpr ⟨Nat.le_refl t, h⟩) (le_latest t hs)

theorem latest_max : latest (max t u) hs = max t (latest u hs) := by
  induction hs generalizing u with
  | nil => rfl
  | cons h hs ih => rw [latest_cons, latest_cons, Nat.max_assoc, ih]

theorem latest_eq_max (t : Nat) (hs : List Handling) : latest t hs = max t (latest 0 hs) := by
  rw [← latest_max, Nat.max_zero]

/-- The latest time is one of them. -/
theorem latest_eq_or (t : Nat) (hs : List Handling) :
    latest t hs = t ∨ ∃ h ∈ hs, h.time = latest t hs :=
  foldl_max_eq_or Handling.time hs t

theorem latest_handleAll (s : Subscriber) (t : Nat) (es : List Event) :
    latest t (s.handleAll t es) = t + es.length * s.pause := by
  induction es generalizing t with
  | nil => simp
  | cons e es ih =>
    have htime : max t (t + s.pause) = t + s.pause := by omega
    show latest (max t (t + s.pause)) (s.handleAll (t + s.pause) es) = _
    rw [htime, ih, List.length_cons, Nat.succ_mul]
    omega

end

namespace Lane

variable {l l' k : Lane} {start now mid stop t : Nat} {queue : List Envelope} {e : Event}

/-! ## The timetable -/

@[simp] theorem filterMap_event_cons (e : Event) (queue : List Envelope) :
    (.event e :: queue).filterMap Envelope.event? = e :: queue.filterMap Envelope.event? := rfl

@[simp] theorem filterMap_marker_cons (queue : List Envelope) :
    (.marker :: queue).filterMap Envelope.event? = queue.filterMap Envelope.event? := rfl

/-- What the subscriber has handled, what it handles and what it will handle if nothing more is
    accepted, in order. -/
def timetable (l : Lane) (now : Nat) : List Handling :=
  l.handled ++ (l.current.map fun c => l.subscriber.handle c.1 c.2).toList ++
    l.subscriber.handleAll (l.nextTake now) l.queued

theorem map_event_timetable (l : Lane) (now : Nat) :
    (l.timetable now).map Handling.event = l.accepted := by
  cases hc : l.current <;> simp [timetable, accepted, handed, hc, Subscriber.handle]

/-- What was handled comes first. -/
theorem handled_prefix_timetable (l : Lane) (now : Nat) : l.handled <+: l.timetable now := by
  rw [timetable, List.append_assoc]
  exact List.prefix_append ..

theorem backlog_eq_length (l : Lane) : l.backlog = l.queued.length := by
  unfold backlog queued
  induction l.queue with
  | nil => rfl
  | cons x queue ih => cases x <;> simp [ih]

theorem IsIdle.timetable_eq (h : l.IsIdle) (t : Nat) : l.timetable t = l.handled := by
  simp [timetable, queued, h.queue, h.current]

/-- Taking from a queue handles what is in it without a break. -/
theorem timetable_take (hc : l.current = none) (t : Nat) :
    (take stop queue now l).timetable t =
      l.handled ++ l.subscriber.handleAll now (queue.filterMap Envelope.event?) := by
  induction queue generalizing now l with
  | nil => simp [take, timetable, queued, hc]
  | cons x rest ih =>
    cases x with
    | marker => exact ih (l := { l with marks := l.marks ++ [now] }) hc
    | event e =>
      rw [take, filterMap_event_cons, Subscriber.handleAll]
      split
      · rw [ih rfl]
        simp [finish, Subscriber.handle]
      · simp [timetable, queued, nextTake]

/-- Running a lane keeps its timetable. -/
theorem timetable_run (l : Lane) (h : now < stop ∨ t = now) :
    (l.run now stop).timetable t = l.timetable now := by
  unfold run
  split
  · next e done hc =>
    split
    · rw [timetable_take rfl]
      simp [timetable, hc, nextTake, finish, queued, Subscriber.handle]
    · simp [timetable, hc, nextTake]
  · next hc =>
    split
    · rw [timetable_take hc]
      simp [timetable, hc, nextTake, queued]
    · next hlate =>
      obtain hlt | rfl := h
      · exact absurd hlt hlate
      · rfl

theorem timetable_enqueue_marker (l : Lane) (t : Nat) :
    (l.enqueue .marker).timetable t = l.timetable t := by
  simp [timetable, enqueue, queued, nextTake]

/-- An event that is accepted is handled last. -/
theorem timetable_offer (hroom : l.isFull = false) (e : Event) (now : Nat) :
    (l.offer e).timetable now =
      l.timetable now ++ [l.subscriber.handle e (l.idleAt now + l.subscriber.pause)] := by
  have hqueued : (l.enqueue (.event e)).queued = l.queued ++ [e] := by
    simp [queued, enqueue, Envelope.event?]
  rw [offer, if_neg (by simp [hroom]), timetable, hqueued, idleAt, backlog_eq_length]
  show l.handled ++ _ ++ l.subscriber.handleAll (l.nextTake now) (l.queued ++ [e]) = _
  rw [Subscriber.handleAll_append, ← List.append_assoc]
  rfl

/-- What a lane has handled when it took from its queue. -/
theorem handled_take (hstop : ∀ h ∈ l.handled, h.time < stop) :
    (take stop queue now l).handled = (l.handled ++ l.subscriber.handleAll now
      (queue.filterMap Envelope.event?)).filter fun h => h.time < stop := by
  have hall : l.handled.filter (fun h => h.time < stop) = l.handled :=
    List.filter_eq_self.mpr fun h hh => decide_eq_true (hstop h hh)
  induction queue generalizing now l with
  | nil => simp [take, hall]
  | cons x rest ih =>
    cases x with
    | marker => exact ih (l := { l with marks := l.marks ++ [now] }) hstop hall
    | event e =>
      rw [take, filterMap_event_cons, Subscriber.handleAll]
      split
      · next hdone =>
        have hmore : ∀ h ∈ (l.finish e (now + l.subscriber.pause)).handled, h.time < stop :=
          List.forall_mem_append.mpr ⟨hstop, by simpa using hdone⟩
        rw [ih hmore (List.filter_eq_self.mpr fun h hh => decide_eq_true (hmore h hh))]
        simp [finish, Subscriber.handle]
      · next hlate =>
        have hnone : ∀ h ∈ l.subscriber.handle e (now + l.subscriber.pause) ::
            l.subscriber.handleAll (now + l.subscriber.pause) (rest.filterMap Envelope.event?),
            ¬ h.time < stop := by
          intro h hh
          rcases List.mem_cons.mp hh with rfl | hh
          · exact hlate
          · have hle := Subscriber.le_of_mem_handleAll hh
            omega
        rw [List.filter_append, hall, List.filter_eq_nil_iff.mpr (by simpa using hnone),
          List.append_nil]

theorem handled_run (hnow : now < stop) (hstop : ∀ h ∈ l.handled, h.time < stop) :
    (l.run now stop).handled = (l.timetable now).filter fun h => h.time < stop := by
  unfold run
  split
  · next e done hc =>
    split
    · next hdone =>
      have hmore : ∀ h ∈ (l.finish e done).handled, h.time < stop :=
        List.forall_mem_append.mpr ⟨hstop, by simpa using hdone⟩
      rw [handled_take hmore]
      simp [timetable, hc, nextTake, finish, queued, Subscriber.handle]
    · next hlate =>
      have hall : l.handled.filter (fun h => h.time < stop) = l.handled :=
        List.filter_eq_self.mpr fun h hh => decide_eq_true (hstop h hh)
      have hnone : ∀ h ∈ l.subscriber.handle e done :: l.subscriber.handleAll done l.queued,
          ¬ h.time < stop := by
        intro h hh
        rcases List.mem_cons.mp hh with rfl | hh
        · exact hlate
        · have hle := Subscriber.le_of_mem_handleAll hh
          omega
      have htimetable : l.timetable now = l.handled ++
          (l.subscriber.handle e done :: l.subscriber.handleAll done l.queued) := by
        simp [timetable, hc, nextTake]
      rw [htimetable, List.filter_append, hall,
        List.filter_eq_nil_iff.mpr (by simpa using hnone), List.append_nil]
  · next hc =>
    rw [if_pos hnow, handled_take hstop]
    simp [timetable, hc, nextTake, queued]

/-! ## When a lane is idle -/

/-- What was handled lies in the past, and what is handled does not. -/
structure IsOnTime (now : Nat) (l : Lane) : Prop where
  handled : ∀ h ∈ l.handled, h.time ≤ now
  current : ∀ e done, l.current = some (e, done) → now ≤ done

/-- A lane is idle when the last event of its timetable was handled. -/
theorem idleAt_eq_latest (h : l.IsOnTime now) : l.idleAt now = latest now (l.timetable now) := by
  have hcurrent : latest now (l.current.map fun c => l.subscriber.handle c.1 c.2).toList =
      l.nextTake now := by
    unfold nextTake
    cases hc : l.current with
    | none => rfl
    | some c => exact Nat.max_eq_right (h.current c.1 c.2 hc)
  rw [timetable, latest_append, latest_append, latest_eq_of_le h.handled, hcurrent,
    latest_handleAll, idleAt, backlog_eq_length]

/-- A lane that is run up to a later moment has handled what its timetable has before it. -/
theorem IsOnTime.handled_run_eq (h : l.IsOnTime now) (hstop : now < stop) :
    (l.run now stop).handled = (l.timetable now).filter fun h => h.time < stop := by
  apply handled_run hstop
  intro x hx
  exact Nat.lt_of_le_of_lt (h.handled x hx) hstop

theorem nextTake_le_idleAt (l : Lane) (now : Nat) : l.nextTake now ≤ l.idleAt now :=
  Nat.le_add_right ..

theorem isOnTime_run (h : l.IsOnTime start) (hnow : start ≤ now)
    (hstop : stop = now ∨ stop = now + 1) : (l.run start stop).IsOnTime now where
  handled := by
    have hcontinues : l.Continues now (l.run start stop) := continues_run l start (by omega)
    obtain ⟨news, heq, hnews⟩ := hcontinues.handled
    rw [heq]
    exact List.forall_mem_append.mpr
      ⟨fun x hx => Nat.le_trans (h.handled x hx) hnow, hnews⟩
  current e done hc := by
    have hnext := le_nextTake_run l start stop
    rw [nextTake, hc] at hnext
    have hle : stop ≤ done := hnext
    omega

/-! ## Markers -/

theorem queue_take_cons_suffix (x : Envelope) :
    (take stop (x :: queue) now l).queue <:+ queue := by
  cases x with
  | marker =>
    rw [take]
    exact queue_take_suffix
  | event e =>
    rw [take]
    split
    · exact queue_take_suffix
    · exact List.suffix_refl _

/-- A lane that is run for as long as it takes until something is taken has room. -/
theorem length_queue_run_lt (hqueue : l.queue ≠ []) (now : Nat) :
    (l.run now (l.nextTake now + 1)).queue.length < l.queue.length := by
  obtain ⟨x, rest, hrest⟩ := List.exists_cons_of_ne_nil hqueue
  have hsuffix : (l.run now (l.nextTake now + 1)).queue <:+ rest := by
    unfold run nextTake
    split
    · next e done hc =>
      have hlt : done < ((some (e, done)).map (·.2)).getD now + 1 := Nat.lt_succ_self done
      rw [hc, hrest, if_pos hlt]
      exact queue_take_cons_suffix x
    · next hc =>
      have hlt : now < ((none : Option (Event × Nat)).map (·.2)).getD now + 1 :=
        Nat.lt_succ_self now
      rw [hc, hrest, if_pos hlt]
      exact queue_take_cons_suffix x
  have hlength := hsuffix.length_le
  rw [hrest, List.length_cons]
  omega

theorem one_le_limit (l : Lane) : 1 ≤ l.limit := Nat.le_max_right ..

theorem queue_ne_nil_of_isFull (h : l.isFull = true) : l.queue ≠ [] := by
  intro hqueue
  have hlimit := one_le_limit l
  simp only [isFull, hqueue, List.length_nil, decide_eq_true_eq] at h
  omega

theorem length_queue_lt_of_isFull (h : l.isFull = false) : l.queue.length < l.limit := by
  simpa [isFull] using h

/-! ## A lane that proceeds -/

/-- A lane was run from one moment to another, and perhaps a marker was put into it. -/
structure Proceeds (start : Nat) (l : Lane) (now : Nat) (l' : Lane) : Prop where
  subscriber : l'.subscriber = l.subscriber
  timetable : l'.timetable now = l.timetable start
  handled : l.handled <+: l'.handled
  dropped : l'.dropped = l.dropped
  isOnTime : l.IsOnTime start → l'.IsOnTime now
  fits : l.queue.length ≤ l.limit → l'.queue.length ≤ l'.limit

theorem Proceeds.refl (now : Nat) (l : Lane) : Proceeds now l now l :=
  ⟨rfl, rfl, List.prefix_refl _, rfl, id, id⟩

theorem Proceeds.trans (h : Proceeds start l mid l') (h' : Proceeds mid l' now k) :
    Proceeds start l now k where
  subscriber := h'.subscriber.trans h.subscriber
  timetable := h'.timetable.trans h.timetable
  handled := h.handled.trans h'.handled
  dropped := h'.dropped.trans h.dropped
  isOnTime hl := h'.isOnTime (h.isOnTime hl)
  fits hl := h'.fits (h.fits hl)

/-- When a lane that proceeds is idle. -/
theorem Proceeds.idleAt_eq (h : Proceeds start l now l') (hnow : start ≤ now)
    (hl : l.IsOnTime start) : l'.idleAt now = max now (l.idleAt start) := by
  rw [idleAt_eq_latest (h.isOnTime hl), h.timetable, idleAt_eq_latest hl, ← latest_max,
    Nat.max_eq_left hnow]

theorem proceeds_run (l : Lane) (hnow : start ≤ now) (hstop : stop = now ∨ stop = now + 1) :
    Proceeds start l now (l.run start stop) := by
  have hcontinues : l.Continues now (l.run start stop) := continues_run l start (by omega)
  obtain ⟨news, heq, -⟩ := hcontinues.handled
  refine ⟨hcontinues.subscriber, timetable_run l (by omega), ?_, hcontinues.dropped,
    fun hl => isOnTime_run hl hnow hstop, fun hl => ?_⟩
  · rw [heq]
    exact List.prefix_append ..
  · rw [limit, hcontinues.subscriber]
    exact Nat.le_trans (queue_run_suffix l start stop).length_le hl

theorem isPlain_run (hplain : l.IsPlain) (start stop : Nat) : (l.run start stop).IsPlain := by
  intro hmarker
  exact hplain ((queue_run_suffix l start stop).subset hmarker)

theorem proceeds_enqueue_marker (hroom : l.isFull = false) (now : Nat) :
    Proceeds now l now (l.enqueue .marker) where
  subscriber := rfl
  timetable := timetable_enqueue_marker l now
  handled := List.prefix_refl _
  dropped := rfl
  isOnTime hl := ⟨hl.handled, hl.current⟩
  fits _ := by
    show (l.queue ++ [Envelope.marker]).length ≤ l.limit
    rw [List.length_append]
    exact length_queue_lt_of_isFull hroom

/-- A marker is put into a queue that has room for it, at once or as soon as it has. -/
theorem proceeds_mark (hl : l.IsOnTime now) (hfits : l.queue.length ≤ l.limit) :
    Proceeds now l (l.mark now).1 (l.mark now).2 := by
  unfold mark
  split
  · next hfull =>
    have hnext : now ≤ l.nextTake now := by
      unfold nextTake
      cases hc : l.current with
      | none => exact Nat.le_refl _
      | some c => exact hl.current c.1 c.2 hc
    have hrun := proceeds_run l hnext (.inr rfl)
    have hroom : (l.run now (l.nextTake now + 1)).isFull = false := by
      have hlt := length_queue_run_lt (queue_ne_nil_of_isFull hfull) now
      refine decide_eq_false ?_
      rw [limit, hrun.subscriber, ← limit]
      omega
    exact hrun.trans (proceeds_enqueue_marker hroom _)
  · next hroom => exact proceeds_enqueue_marker (by simpa using hroom) now

/-- A marker is put into a queue before the lane is idle. -/
theorem mark_le_idleAt (l : Lane) (now : Nat) : (l.mark now).1 ≤ max now (l.idleAt now) := by
  unfold mark
  split
  · exact Nat.le_trans (nextTake_le_idleAt l now) (Nat.le_max_right ..)
  · exact Nat.le_max_left ..

end Lane

end Steward.Delivery
