import Steward.Proofs.Delivery.Steps

/-!
# What is published

Who publishes some events one after the other creates each and sends it at once. So they are numbered
in the order in which they are published, from what the counter shows, and neither a full bus nor
full lanes nor a flush that goes on for long keeps one from being published. Nothing else that a
dispatcher does creates an event or sends one (`Dispatcher.Publishes`).

Results:
* `Dispatcher.Publishes.append`: what is published in two parts.
* `Dispatcher.Announces.publishes`: what is published at some times in turn.
* `Dispatcher.le_time_awaitFlush`, `Dispatcher.awaitFlush_cases`: when and how somebody stops
  waiting for a flush.
-/

namespace Steward.Event

theorem length_numberFrom (n : UInt64) (es : List Event) :
    (numberFrom n es).length = es.length := by
  induction es generalizing n with
  | nil => rfl
  | cons e es ih => rw [numberFrom, List.length_cons, ih, List.length_cons]

theorem numberFrom_append (n : UInt64) (es fs : List Event) :
    numberFrom n (es ++ fs) = numberFrom n es ++ numberFrom (n + .ofNat es.length) fs := by
  induction es generalizing n with
  | nil =>
    have hzero : n + .ofNat ([] : List Event).length = n := UInt64.add_zero n
    rw [hzero]
    rfl
  | cons e es ih =>
    have hcount : n + 1 + .ofNat es.length = n + .ofNat (e :: es).length := by
      rw [List.length_cons, Nat.add_comm, UInt64.ofNat_add, UInt64.add_assoc]
      rfl
    rw [List.cons_append, numberFrom, ih, hcount]
    rfl

end Steward.Event

namespace Steward.Delivery

/-- The books after some events were created and sent one after the other. -/
def Outbox.issue (o : Outbox) (es : List Event) : Outbox where
  counter := o.counter + .ofNat es.length
  created := o.created ++ Event.numberFrom o.counter es
  unsent := o.unsent
  published := o.published ++ Event.numberFrom o.counter es

theorem Outbox.issue_nil (o : Outbox) : o.issue [] = o := by
  have hzero : o.counter + .ofNat ([] : List Event).length = o.counter := UInt64.add_zero _
  unfold issue
  rw [hzero, Event.numberFrom, List.append_nil, List.append_nil]

theorem Outbox.issue_append (o : Outbox) (es fs : List Event) :
    o.issue (es ++ fs) = (o.issue es).issue fs := by
  simp only [issue, Event.numberFrom_append, List.length_append, UInt64.ofNat_add,
    UInt64.add_assoc, List.append_assoc]

end Steward.Delivery

namespace Steward.Delivery.Dispatcher

variable {d d' d'' : Dispatcher} {time patience : Nat} {es fs : List Event}

/-! ## What publishes nothing -/

@[simp] theorem toOutbox_collect (d : Dispatcher) : d.collect.toOutbox = d.toOutbox := by
  unfold collect
  split <;> rfl

@[simp] theorem toOutbox_forward (d : Dispatcher) : d.forward.toOutbox = d.toOutbox :=
  toOutbox_collect d

@[simp] theorem toOutbox_serve (d : Dispatcher) : d.serve.toOutbox = d.toOutbox :=
  toOutbox_collect d

@[simp] theorem toOutbox_catchUp (d : Dispatcher) (time : Nat) :
    (d.catchUp time).toOutbox = d.toOutbox := by
  have hforward : ∀ e : Dispatcher, (if e.freeAt < time then
      { e.forward with lanes := e.forward.lanes.advance time } else e).toOutbox = e.toOutbox := by
    intro e
    split
    · exact toOutbox_forward e
    · rfl
  unfold catchUp
  dsimp only
  rw [hforward]
  split
  · exact toOutbox_serve d
  · rfl

@[simp] theorem toOutbox_forwardAt (d : Dispatcher) (time : Nat) :
    (d.forwardAt time).toOutbox = d.toOutbox := by
  unfold forwardAt
  split
  · exact toOutbox_forward d
  · rfl

@[simp] theorem toOutbox_ask (d : Dispatcher) (time patience : Nat) :
    (d.ask time patience).2.toOutbox = d.toOutbox := by
  unfold ask
  dsimp only
  split
  · split
    · exact toOutbox_serve d
    · exact toOutbox_serve d
  · rfl

@[simp] theorem toOutbox_awaitFlush (d : Dispatcher) (time patience : Nat) :
    (d.awaitFlush time patience).2.toOutbox = d.toOutbox := by
  unfold awaitFlush
  dsimp only
  split
  · rw [toOutbox_ask, toOutbox_serve, toOutbox_catchUp]
  · rw [toOutbox_ask, toOutbox_catchUp]

/-! ## What publishes some events -/

/-- One dispatcher comes from another in steps, in which some events are published. -/
structure Publishes (es : List Event) (d d' : Dispatcher) : Prop where
  steps : Steps d d'
  outbox : d'.toOutbox = d.toOutbox.issue es

theorem Publishes.published (h : Publishes es d d') :
    d'.published = d.published ++ Event.numberFrom d.counter es :=
  congrArg Outbox.published h.outbox

theorem Publishes.nil (hsteps : Steps d d') (h : d'.toOutbox = d.toOutbox) :
    Publishes [] d d' :=
  ⟨hsteps, by rw [h, Outbox.issue_nil]⟩

theorem Publishes.append (h : Publishes es d d') (h' : Publishes fs d' d'') :
    Publishes (es ++ fs) d d'' where
  steps := h.steps.trans h'.steps
  outbox := by rw [h'.outbox, h.outbox, Outbox.issue_append]

/-- Publishing some events one after the other. -/
theorem publishes_foldl (es : List Event) (d : Dispatcher) :
    Publishes es d (es.foldl publish d) := by
  induction es generalizing d with
  | nil => exact .nil .refl rfl
  | cons e es ih =>
    have hfirst : Publishes [e] d (d.publish e) := ⟨steps_publish d e, rfl⟩
    exact hfirst.append (ih (d.publish e))

theorem publishes_catchUp (d : Dispatcher) (time : Nat) : Publishes [] d (d.catchUp time) :=
  .nil (steps_catchUp d time) (toOutbox_catchUp d time)

theorem publishes_forwardAt (d : Dispatcher) (time : Nat) : Publishes [] d (d.forwardAt time) :=
  .nil (steps_forwardAt d time) (toOutbox_forwardAt d time)

theorem publishes_awaitFlush (d : Dispatcher) (time patience : Nat) :
    Publishes [] d (d.awaitFlush time patience).2 :=
  .nil (steps_awaitFlush d time patience) (toOutbox_awaitFlush d time patience)

/-! ## What is published at some times -/

/-- One dispatcher comes from another while events are published at some times in turn: it catches
    up with each time, the events are published, and what follows up to the next time publishes
    nothing. -/
inductive Announces : List (Nat × List Event) → Dispatcher → Dispatcher → Prop
  /-- Nothing happens. -/
  | nil (d : Dispatcher) : Announces [] d d
  /-- Events are published at a time, and others from there on. -/
  | cons {d e d' : Dispatcher} {time : Nat} {es : List Event} {timed : List (Nat × List Event)}
      (hquiet : Publishes [] (es.foldl publish (d.catchUp time)) e)
      (hrest : Announces timed e d') : Announces ((time, es) :: timed) d d'

theorem Announces.append {timed timed' : List (Nat × List Event)} (h : Announces timed d d')
    (h' : Announces timed' d' d'') : Announces (timed ++ timed') d d'' := by
  induction h with
  | nil => exact h'
  | cons hquiet _ ih => exact .cons hquiet (ih h')

/-- Steps that publish some events at a time each do so one after the other. -/
theorem announces_foldl {α : Type} {step : Dispatcher → α → Dispatcher}
    {entry : α → Nat × List Event} (h : ∀ d x, Announces [entry x] d (step d x)) (xs : List α)
    (d : Dispatcher) : Announces (xs.map entry) d (xs.foldl step d) := by
  induction xs generalizing d with
  | nil => exact .nil d
  | cons x xs ih => exact (h d x).append (ih (step d x))

/-- All of the events are published in order. -/
theorem Announces.publishes {timed : List (Nat × List Event)} (h : Announces timed d d') :
    Publishes (timed.flatMap Prod.snd) d d' := by
  induction h with
  | nil => exact .nil .refl rfl
  | @cons d e d' time es timed hquiet _ ih =>
    have hfirst := ((publishes_catchUp d time).append (publishes_foldl es _)).append hquiet
    rw [List.nil_append, List.append_nil] at hfirst
    exact hfirst.append ih

/-! ## How a wait ends -/

/-- Reports are added behind those that were made before. -/
theorem reports_grow (h : Steps d d') : d.reports <+: d'.reports := by
  induction h with
  | refl => exact List.prefix_refl _
  | @tail b c _ hstep ih =>
    obtain ⟨news, hnews⟩ : ∃ news, c.reports = b.reports ++ news := by
      obtain ⟨-, -, -, heq | ⟨r, -, heq⟩⟩ | ⟨e, -, -, -, heq⟩ | ⟨e, rest, -, -, -, -, -, heq⟩ |
        ⟨-, -, -, -, heq⟩ := hstep.cases_bus
      · exact ⟨[], by rw [heq, List.append_nil]⟩
      · exact ⟨[r], heq⟩
      · exact ⟨[], by rw [heq, List.append_nil]⟩
      · exact ⟨[], by rw [heq, List.append_nil]⟩
      · exact ⟨_, heq⟩
    exact ih.trans ⟨news, hnews.symm⟩

theorem le_freeAt_catchUp (d : Dispatcher) (time : Nat) : time ≤ (d.catchUp time).freeAt := by
  unfold catchUp
  dsimp only
  generalize (if d.requested = true ∧ d.freeAt ≤ time then d.serve else d) = e
  split
  · exact Nat.le_max_right ..
  · next hfree => exact Nat.le_of_not_lt hfree

theorem le_time_ask (h : time ≤ d.freeAt) (patience : Nat) :
    time ≤ (d.ask time patience).1.time := by
  unfold ask
  dsimp only
  split
  · split
    · exact Nat.le_trans h d.freeAt_le_freeAt_serve
    · exact Nat.le_add_right time patience
  · exact Nat.le_add_right time patience

/-- Nobody stops waiting before having begun to. -/
theorem le_time_awaitFlush (d : Dispatcher) (time patience : Nat) :
    time ≤ (d.awaitFlush time patience).1.time := by
  have hfree := le_freeAt_catchUp d time
  unfold awaitFlush
  dsimp only
  split
  · exact Nat.le_trans hfree (le_time_ask (freeAt_le_freeAt_serve _) patience)
  · exact le_time_ask hfree patience

/-- Who asks for a flush stops waiting when it is complete, or a report says that it is not. -/
theorem ask_cases (d : Dispatcher) (time patience : Nat) :
    ((d.ask time patience).1.time = d.serve.freeAt ∧ (d.ask time patience).2 = d.serve) ∨
      ∃ e, Steps d e ∧ (d.ask time patience).2 = e.report (.busy patience) := by
  unfold ask
  dsimp only
  split
  · split
    · exact .inl ⟨rfl, rfl⟩
    · exact .inr ⟨_, steps_serve d, rfl⟩
  · exact .inr ⟨_, (Step.request d true).steps, rfl⟩

/-- The same for who may have to wait behind a former request. -/
theorem awaitFlush_cases (d : Dispatcher) (time patience : Nat) :
    (∃ e, Steps d e ∧ (d.awaitFlush time patience).1.time = e.serve.freeAt ∧
        (d.awaitFlush time patience).2 = e.serve) ∨
      ∃ e, Steps d e ∧ (d.awaitFlush time patience).2 = e.report (.busy patience) := by
  have hcatchUp := steps_catchUp d time
  obtain ⟨e, start, hsteps, heq⟩ : ∃ e start, Steps d e ∧
      d.awaitFlush time patience = e.ask start patience := by
    unfold awaitFlush
    dsimp only
    split
    · exact ⟨_, _, hcatchUp.trans (steps_serve _), rfl⟩
    · exact ⟨_, _, hcatchUp, rfl⟩
  rw [heq]
  obtain ⟨htime, hdone⟩ | ⟨f, hf, hbusy⟩ := e.ask_cases start patience
  · exact .inl ⟨e, hsteps, htime, hdone⟩
  · exact .inr ⟨f, hsteps.trans hf, hbusy⟩

end Steward.Delivery.Dispatcher
