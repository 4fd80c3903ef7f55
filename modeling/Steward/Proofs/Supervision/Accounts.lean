import Steward.Proofs.Delivery.Books
import Steward.Proofs.Supervision.History

/-!
# No event is lost silently

Whatever a supervisor has carried out, and wherever it is interrupted, each event that was published
is accounted for (`Accounts`). Events get lost in two places: the bus gives up the oldest, and a
full lane does not take the newest. Each loss is reported once.

The number of an event says when it was created, not when it was published: between the two, others
may publish theirs, and after 2 ^ 64 events the numbers begin again. In runs, events are published
in the order in which they are created.

Results:
* `Delivery.Dispatcher.KeepsBooks.accounts`: the accounts follow from the books.
* `Supervisor.accounts_for_events`: the accounts of a supervisor.
* `Supervisor.handed_out_of_order`: numbers that do not ascend, and records of one name.
-/

namespace Steward.Delivery.Dispatcher

variable {d : Dispatcher} {subscribers : List Subscriber}

/-- What becomes of the events that are created and published for some subscribers. -/
structure Accounts (subscribers : List Subscriber) (d : Dispatcher) : Prop where
  /-- Each event that was created was published once or not yet. -/
  sent : (d.published ++ d.unsent).Perm d.created
  /-- Its number is how many were created before, as far as 64 bits go. -/
  numbered : d.created.map Event.seq = (List.range d.created.length).map (· % UInt64.size)
  /-- When the bus is empty, the loss of all events that were not forwarded was reported. -/
  drained : d.bus.held = [] → d.published.length = d.forwarded.length + skipped d.reports
  forwarded : d.forwarded.Sublist d.published
  subscribers : d.lanes.lanes.map Lane.subscriber = subscribers
  /-- A subscriber is handed events in the order of publication, none of them twice. -/
  handed : ∀ l ∈ d.lanes.lanes, l.handed.Sublist d.published
  /-- Until the counter begins again, these have different numbers. -/
  distinct : d.created.length ≤ UInt64.size →
    ∀ l ∈ d.lanes.lanes, (l.handed.map Event.seq).Nodup
  /-- The numbers ascend if events are published in the order in which they are created. -/
  ascending : d.created.length ≤ UInt64.size → d.published.Sublist d.created →
    ∀ l ∈ d.lanes.lanes, l.handed.Pairwise fun e f => e.seq < f.seq
  /-- Each event that was forwarded was handed over, waits in the queue, or was dropped. -/
  placed : ∀ l ∈ d.lanes.lanes, (l.handed ++ l.queued ++ l.dropped).Perm d.forwarded
  /-- Each event that a lane has dropped has one record with the name of the subscriber. -/
  recorded : d.lanes.dropRecords.Perm (d.lanes.lanes.flatMap Lane.drops)

theorem KeepsBooks.accounts (h : d.KeepsBooks subscribers) : d.Accounts subscribers := by
  have hforwarded : d.forwarded.Sublist d.published :=
    (List.sublist_append_left ..).trans h.passed
  have hhanded : ∀ l ∈ d.lanes.lanes, l.handed.Sublist d.published := by
    intro l hl
    have haccepted := (h.lanes.balances l hl).accepted.trans hforwarded
    exact (List.sublist_append_left l.handed l.queued).trans haccepted
  exact {
    sent := h.outbox.sent
    numbered := h.outbox.numbered
    drained := by
      intro hheld
      have hbalance := h.balance
      rwa [h.missed hheld, hheld, Nat.add_zero] at hbalance
    forwarded := hforwarded
    subscribers := h.lanes.subscribers
    handed := hhanded
    distinct := fun hlength l hl => (h.outbox.nodup hlength).sublist ((hhanded l hl).map _)
    ascending := fun hlength horder l hl => (h.outbox.ordered hlength horder).sublist (hhanded l hl)
    placed := fun l hl => (h.lanes.balances l hl).perm
    recorded := h.lanes.recorded }

end Steward.Delivery.Dispatcher

namespace Steward.Supervision

open Delivery Delivery.Dispatcher

theorem Supervisor.keepsBooks_of_steps {settings : Settings} {factory : Template.Factory}
    {observers : List Subscriber} {d : Dispatcher}
    (h : Steps (start settings factory observers).dispatcher d) :
    d.KeepsBooks (logWriter :: observers) :=
  (keepsBooks_start settings.busCapacity (logWriter :: observers)).steps h

/-- Runs are made of steps, in which events are published in the order in which they are created.
    Behind each step all events are accounted for. -/
theorem Supervisor.accounts_for_events (settings : Settings) (factory : Template.Factory)
    (observers : List Subscriber) :
    (∀ history ms, Steps (start settings factory observers).dispatcher
        (seasoned settings factory observers history ms).dispatcher ∧
      (seasoned settings factory observers history ms).dispatcher.published =
        (seasoned settings factory observers history ms).dispatcher.created) ∧
    ∀ d, Steps (start settings factory observers).dispatcher d →
      d.Accounts (logWriter :: observers) :=
  ⟨fun history ms => ⟨steps_seasoned settings factory observers history ms,
      published_seasoned settings factory observers history ms⟩,
    fun _ hsteps => (keepsBooks_of_steps hsteps).accounts⟩

end Steward.Supervision

/-! ## Numbers that do not ascend, and records of one name -/

namespace Steward.Delivery.Dispatcher

/-- The numbers of the events that each subscriber is handed ascend. -/
def Ascends (d : Dispatcher) : Prop :=
  ∀ l ∈ d.lanes.lanes, l.handed.Pairwise fun e f => e.seq < f.seq

/-- Each subscriber is named in one record for each event that its lane has dropped. -/
def IsNamedOnce (d : Dispatcher) : Prop :=
  ∀ l ∈ d.lanes.lanes, ∀ e ∈ l.dropped,
    d.lanes.dropRecords.count (l.subscriber.name, e.kind) = l.drops.count (l.subscriber.name, e.kind)

theorem lanes_serve (d : Dispatcher) :
    d.serve.lanes = (d.bus.held.foldl Lanes.emit d.lanes).flush := by
  unfold serve collect
  split <;> rfl

/-- Two events, of which the one that is created later is sent first. -/
def crossing (d : Dispatcher) (a b : Event) : Dispatcher :=
  let first := a.withNumber d.counter
  let second := b.withNumber (d.counter + 1)
  (((d.create a).create b).send second (d.unsent ++ [first])).send first d.unsent

theorem steps_crossing (d : Dispatcher) (a b : Event) : Steps d (crossing d a b) :=
  (Step.create d a).steps.tail (.create _ b) |>.tail (.send_last rfl) |>.tail (.send_last rfl)

/-- Some events that are created and never sent. -/
def createMany (e : Event) : Nat → Dispatcher → Dispatcher
  | 0, d => d
  | n + 1, d => (createMany e n d).create e

theorem steps_createMany (e : Event) (n : Nat) (d : Dispatcher) : Steps d (createMany e n d) := by
  induction n with
  | zero => exact .refl
  | succ n ih => exact ih.tail (.create _ e)

theorem createMany_keeps (e : Event) (n : Nat) (d : Dispatcher) :
    (createMany e n d).counter = d.counter + .ofNat n ∧ (createMany e n d).bus = d.bus ∧
      (createMany e n d).lanes = d.lanes ∧ (createMany e n d).published = d.published := by
  induction n with
  | zero => exact ⟨(UInt64.add_zero _).symm, rfl, rfl, rfl⟩
  | succ n ih =>
    obtain ⟨hcounter, hbus, hlanes, hpublished⟩ := ih
    refine ⟨?_, hbus, hlanes, hpublished⟩
    show (createMany e n d).counter + 1 = _
    rw [hcounter, UInt64.ofNat_add, UInt64.add_assoc]
    rfl

/-- Two events that are published in order when the counter is about to begin again. -/
theorem exists_wrapping {d : Dispatcher} {n : Nat} (hn : UInt64.ofNat n + 1 = 0)
    (hcounter : d.counter = 0) (hpublished : d.published = []) (a b : Event) :
    ∃ d', Steps d d' ∧ d'.published.Sublist d'.created ∧ d'.lanes = d.lanes ∧
      d'.bus = (d.bus.publish (a.withNumber (.ofNat n))).publish (b.withNumber 0) := by
  have hsteps := steps_createMany a n d
  obtain ⟨hcounter', hbus', hlanes', hpublished'⟩ := createMany_keeps a n d
  rw [hcounter, UInt64.zero_add] at hcounter'
  rw [hpublished] at hpublished'
  generalize createMany a n d = e at *
  refine ⟨(e.publish a).publish b, ?_, ?_, hlanes', ?_⟩
  · exact hsteps.trans ((steps_publish e a).trans (steps_publish _ b))
  · show (e.published ++ [_] ++ [_]).Sublist (e.created ++ [_] ++ [_])
    rw [hpublished', List.nil_append]
    exact (List.sublist_append_right _ _).append_right _
  · show (e.bus.publish (a.withNumber e.counter)).publish (b.withNumber (e.counter + 1)) = _
    rw [hcounter', hn, hbus']

theorem not_ascends {d : Dispatcher} {n : Nat}
    (h : [n + 1, 0] ∈ d.lanes.lanes.map fun l => l.handed.map Event.seq) : ¬Ascends d := by
  intro hascends
  obtain ⟨l, hl, hnumbers⟩ := List.mem_map.mp h
  have hpairwise := List.pairwise_map.mpr (hascends l hl)
  rw [hnumbers] at hpairwise
  simp at hpairwise

end Steward.Delivery.Dispatcher

namespace Steward.Supervision

open Delivery Delivery.Dispatcher

/-- The dispatcher of a new supervisor. -/
def begun (observers : List Subscriber) : Dispatcher :=
  (Supervisor.start {} (fun _ _ _ => .built {}) observers).dispatcher

/-- The numbers of the events that a subscriber is handed need not ascend: of two events, the one
    that was created later may be sent first, and those that are sent in order may be numbered by a
    counter that begins again in between. And two subscribers of one name have two records of this
    name for an event that each of them has dropped. -/
theorem Supervisor.handed_out_of_order :
    (∃ d, Steps (begun [{ name := "observer" }]) d ∧ ¬Ascends d) ∧
    (∃ d, Steps (begun [{ name := "observer" }]) d ∧ d.published.Sublist d.created ∧ ¬Ascends d) ∧
    ∃ d, Steps (begun [{ name := "observer", capacity := 1 }, { name := "observer", capacity := 1 }])
      d ∧ ¬IsNamedOnce d := by
  let a : Event := { kind := .shutdownRequested }
  let b : Event := { kind := .allStopped }
  refine ⟨?_, ?_, ?_⟩
  · refine ⟨(crossing (begun _) a b).serve, (steps_crossing _ a b).trans (steps_serve _), ?_⟩
    exact not_ascends (n := 0) (by decide +kernel)
  · obtain ⟨d, hsteps, horder, hlanes, hbus⟩ := exists_wrapping (n := UInt64.size - 1) (by decide)
      (d := begun [{ name := "observer" }]) rfl rfl a b
    refine ⟨d.serve, hsteps.trans (steps_serve d), ?_, ?_⟩
    · rw [toOutbox_serve]
      exact horder
    · refine not_ascends (n := UInt64.size - 2) ?_
      rw [lanes_serve, hlanes, hbus]
      decide +kernel
  · refine ⟨(((begun _).publish a).publish b).serve,
      ((steps_publish _ a).trans (steps_publish _ b)).trans (steps_serve _), ?_⟩
    unfold IsNamedOnce
    decide +kernel

end Steward.Supervision
