import Mathlib.Data.List.Perm.Basic
import Steward.Proofs.Delivery.Steps

/-!
# The books of a dispatcher

No event gets lost unnoticed. An event that was created has its number, and was published once or
not yet. One that was published waits on the bus, was forwarded, or was given up, and then a report
counts it or will do so. An event that was forwarded was handed to each
subscriber, waits in its queue, or was dropped there, and then a record tells so. Each step of the
dispatcher keeps these books.

Results:
* `Outbox.Tallies.step`: the numbers of events, and which were sent.
* `Lanes.KeepBooks.emit`, `Lanes.KeepBooks.goOn`: how lanes keep books.
* `Dispatcher.KeepsBooks.steps`: the books of a dispatcher are right at all times.
-/

namespace Steward.Delivery

/-- The number of lost events that some reports tell. -/
def skipped (rs : List Report) : Nat := rs.foldl (fun n r => n + r.skipped) 0

@[simp] theorem skipped_concat (rs : List Report) (r : Report) :
    skipped (rs ++ [r]) = skipped rs + r.skipped := by
  simp [skipped, List.foldl_append]

/-! ## Lanes side by side -/

section
variable {α β : Type} {R : α → β → Prop} {xs : List α} {ys : List β}

theorem exists_of_getElem? (h : List.Forall₂ R xs ys) {i : Nat} {x : α} (hx : xs[i]? = some x) :
    ∃ y, ys[i]? = some y ∧ R x y := by
  obtain ⟨hlength, hget⟩ := List.forall₂_iff_get.mp h
  obtain ⟨hi, rfl⟩ := List.getElem?_eq_some_iff.mp hx
  have hi' : i < ys.length := by omega
  exact ⟨ys[i], List.getElem?_eq_getElem hi', hget i hi hi'⟩

theorem exists_of_mem_right (h : List.Forall₂ R xs ys) {y : β} (hy : y ∈ ys) :
    ∃ x ∈ xs, R x y := by
  obtain ⟨i, hi⟩ := List.mem_iff_getElem?.mp hy
  obtain ⟨x, hx, hR⟩ := exists_of_getElem? h.flip hi
  exact ⟨x, List.mem_of_getElem? hx, hR⟩

theorem map_eq_of_forall₂ {γ : Type} {f : α → γ} {g : β → γ} (h : List.Forall₂ R xs ys)
    (hfg : ∀ x y, R x y → g y = f x) : ys.map g = xs.map f := by
  induction h with
  | nil => rfl
  | cons hR _ ih => rw [List.map_cons, List.map_cons, hfg _ _ hR, ih]

end

/-! ## The books of a lane -/

namespace Lane

variable {l l' : Lane} {forwarded : List Event} {now : Nat}

/-- Each event that was offered to a lane was either accepted or dropped, in order. -/
structure Balances (forwarded : List Event) (l : Lane) : Prop where
  accepted : l.accepted.Sublist forwarded
  dropped : l.dropped.Sublist forwarded
  perm : (l.accepted ++ l.dropped).Perm forwarded

theorem balances_nil (s : Subscriber) : Balances [] { subscriber := s } :=
  ⟨List.Sublist.refl _, List.Sublist.refl _, List.Perm.refl _⟩

theorem Balances.continues (h : l.Balances forwarded) (hl : l.Continues now l') :
    l'.Balances forwarded := by
  obtain ⟨haccepted, hdropped, hperm⟩ := h
  rw [← hl.accepted] at haccepted
  rw [← hl.dropped] at hdropped
  rw [← hl.accepted, ← hl.dropped] at hperm
  exact ⟨haccepted, hdropped, hperm⟩

theorem Balances.offer (h : l.Balances forwarded) (e : Event) :
    (l.offer e).Balances (forwarded ++ [e]) := by
  have hmore : forwarded.Sublist (forwarded ++ [e]) := List.sublist_append_left ..
  obtain ⟨-, hdropped, haccepted⟩ | ⟨-, hdropped, haccepted⟩ := l.offer_cases e
  · refine ⟨?_, ?_, ?_⟩
    · rw [haccepted]
      exact h.accepted.trans hmore
    · rw [hdropped]
      exact h.dropped.append_right [e]
    · rw [haccepted, hdropped, ← List.append_assoc]
      exact h.perm.append_right [e]
  · refine ⟨?_, ?_, ?_⟩
    · rw [haccepted]
      exact h.accepted.append_right [e]
    · rw [hdropped]
      exact h.dropped.trans hmore
    · rw [haccepted, hdropped]
      calc (l.accepted ++ [e] ++ l.dropped)
        _ |>.Perm (l.accepted ++ l.dropped ++ [e]) := by
          rw [List.append_assoc, List.append_assoc]
          exact (List.perm_append_comm).append_left l.accepted
        _ |>.Perm (forwarded ++ [e]) := h.perm.append_right [e]

/-- What the records about dropped events have to tell of a lane. -/
def drops (l : Lane) : List (String × EventKind) :=
  l.dropped.map fun e => (l.subscriber.name, e.kind)

end Lane

/-! ## The books of all lanes -/

namespace Lanes

variable {s : Lanes} {forwarded : List Event} {subscribers : List Subscriber} {now : Nat}
  {ls : List Lane}

/-- The subscriber and the kind of event of each record about a dropped event. -/
def dropRecords (s : Lanes) : List (String × EventKind) :=
  (s.notices.filter fun n => n.mishap = .dropped).map fun n => (n.subscriber, n.kind)

/-- What the books of some lanes say, one for each subscriber, that were offered some events. -/
structure KeepBooks (subscribers : List Subscriber) (forwarded : List Event) (s : Lanes) :
    Prop where
  subscribers : s.lanes.map Lane.subscriber = subscribers
  balances : ∀ l ∈ s.lanes, l.Balances forwarded
  isPlain : ∀ l ∈ s.lanes, l.IsPlain
  onTime : ∀ l ∈ s.lanes, ∀ h ∈ l.handled, h.time ≤ s.now
  recorded : s.dropRecords.Perm (s.lanes.flatMap Lane.drops)

theorem keepBooks_ofSubscribers (subscribers : List Subscriber) :
    (ofSubscribers subscribers).KeepBooks subscribers [] where
  subscribers := by
    unfold ofSubscribers
    rw [List.map_map]
    exact List.map_id subscribers
  balances l hl := by
    obtain ⟨s, -, rfl⟩ := List.mem_map.mp hl
    exact Lane.balances_nil s
  isPlain l hl := by
    obtain ⟨s, -, rfl⟩ := List.mem_map.mp hl
    simp [Lane.IsPlain]
  onTime l hl := by
    obtain ⟨s, -, rfl⟩ := List.mem_map.mp hl
    simp
  recorded := by simp [ofSubscribers, dropRecords, Lane.drops]

/-- A flush or some work makes no record about a dropped event. -/
theorem dropRecords_goOn (s : Lanes) (now : Nat) (ls : List Lane) :
    (s.goOn now ls).dropRecords = s.dropRecords := by
  have hnews : ∀ n ∈ (s.lanes.zipWith breakNotices ls).flatten, n.mishap = .broken := by
    intro n hn
    obtain ⟨ns, hns, hn⟩ := List.mem_flatten.mp hn
    obtain ⟨i, hi, rfl⟩ := List.mem_iff_getElem.mp hns
    rw [List.getElem_zipWith] at hn
    obtain ⟨h, -, rfl⟩ := List.mem_map.mp hn
    rfl
  have hnone : ((s.lanes.zipWith breakNotices ls).flatten.mergeSort
      fun a b => a.time ≤ b.time).filter (fun n => n.mishap = .dropped) = [] := by
    refine List.filter_eq_nil_iff.mpr fun n hn => ?_
    simp [hnews n (List.mem_mergeSort.mp hn)]
  unfold dropRecords goOn
  dsimp only
  rw [List.filter_append, hnone, List.append_nil]

theorem KeepBooks.goOn (h : s.KeepBooks subscribers forwarded) (hnow : s.now ≤ now)
    (hls : List.Forall₂ (Lane.Works now) s.lanes ls) :
    (s.goOn now ls).KeepBooks subscribers forwarded where
  subscribers := by
    rw [← h.subscribers]
    exact map_eq_of_forall₂ hls fun l l' hl => hl.subscriber
  balances l' hl' := by
    obtain ⟨l, hl, hworks⟩ := exists_of_mem_right hls hl'
    exact (h.balances l hl).continues hworks.toContinues
  isPlain l' hl' := by
    obtain ⟨l, hl, hworks⟩ := exists_of_mem_right hls hl'
    exact hworks.isPlain (h.isPlain l hl)
  onTime l' hl' := by
    obtain ⟨l, hl, hworks⟩ := exists_of_mem_right hls hl'
    obtain ⟨news, heq, hnews⟩ := hworks.handled
    rw [heq]
    refine List.forall_mem_append.mpr ⟨fun x hx => ?_, hnews⟩
    exact Nat.le_trans (h.onTime l hl x hx) hnow
  recorded := by
    have hsame : ls.map Lane.drops = s.lanes.map Lane.drops :=
      map_eq_of_forall₂ hls fun l l' hl => by simp only [Lane.drops, hl.dropped, hl.subscriber]
    have hdrops : ls.flatMap Lane.drops = s.lanes.flatMap Lane.drops := by
      rw [List.flatMap_def, hsame, List.flatMap_def]
    rw [dropRecords_goOn]
    show s.dropRecords.Perm (ls.flatMap Lane.drops)
    rw [hdrops]
    exact h.recorded

/-- An event is dropped by the lanes that are full. -/
theorem drops_emit (s : Lanes) (e : Event) :
    ((s.emit e).lanes.flatMap Lane.drops).Perm (s.lanes.flatMap Lane.drops ++
      (s.lanes.filter Lane.isFull).map fun l => (l.subscriber.name, e.kind)) := by
  let dropped (l : Lane) : List (String × EventKind) :=
    if l.isFull then [(l.subscriber.name, e.kind)] else []
  have hoffer : ∀ l : Lane, (l.offer e).drops = l.drops ++ dropped l := by
    intro l
    unfold Lane.drops
    rw [l.subscriber_offer]
    obtain ⟨hfull, hdropped, -⟩ | ⟨hfull, hdropped, -⟩ := l.offer_cases e
    · simp [dropped, hdropped, hfull]
    · simp [dropped, hdropped, hfull]
  have hfull : ∀ ls : List Lane, ls.flatMap dropped =
      (ls.filter Lane.isFull).map fun l => (l.subscriber.name, e.kind) := by
    intro ls
    induction ls with
    | nil => rfl
    | cons l ls ih => by_cases hl : l.isFull <;> simp [dropped, hl, ← ih]
  calc ((s.emit e).lanes.flatMap Lane.drops)
    _ = s.lanes.flatMap fun l => l.drops ++ dropped l := by
      simp only [emit, List.flatMap_map, hoffer]
    _ |>.Perm (s.lanes.flatMap Lane.drops ++ s.lanes.flatMap dropped) :=
      (List.flatMap_append_perm ..).symm
    _ = s.lanes.flatMap Lane.drops ++
        (s.lanes.filter Lane.isFull).map fun l => (l.subscriber.name, e.kind) := by rw [hfull]

theorem KeepBooks.emit (h : s.KeepBooks subscribers forwarded) (e : Event) :
    (s.emit e).KeepBooks subscribers (forwarded ++ [e]) where
  subscribers := by
    rw [← h.subscribers]
    simp [Lanes.emit, Lane.subscriber_offer]
  balances := by
    refine List.forall_mem_map.mpr fun l hl => ?_
    exact (h.balances l hl).offer e
  isPlain := by
    refine List.forall_mem_map.mpr fun l hl => ?_
    exact Lane.isPlain_offer (h.isPlain l hl) e
  onTime := by
    refine List.forall_mem_map.mpr fun l hl => ?_
    rw [Lane.handled_offer]
    exact h.onTime l hl
  recorded := by
    have hrecords : (s.emit e).dropRecords =
        s.dropRecords ++ (s.lanes.filter Lane.isFull).map fun l => (l.subscriber.name, e.kind) := by
      have hall : (dropNotices s.now s.lanes e).filter (fun n => n.mishap = .dropped) =
          dropNotices s.now s.lanes e := by
        refine List.filter_eq_self.mpr fun n hn => ?_
        obtain ⟨l, -, rfl⟩ := List.mem_map.mp hn
        rfl
      unfold dropRecords Lanes.emit
      dsimp only
      rw [List.filter_append, hall, List.map_append, dropNotices, List.map_map]
      rfl
    rw [hrecords]
    exact (h.recorded.append_right _).trans (drops_emit s e).symm

end Lanes

/-! ## The books of a bus -/

/-- What a bus is put on it holds, and what it gives up it counts. -/
theorem Bus.publish_cases (b : Bus) (e : Event) :
    (b.held.length < b.capacity ∧ b.publish e = { b with held := b.held ++ [e] }) ∨
      (b.capacity ≤ b.held.length ∧
        b.publish e = { b with held := b.held.tail ++ [e], missed := b.missed + 1 }) := by
  unfold Bus.publish
  split
  · next hroom => exact .inl ⟨hroom, rfl⟩
  · next hfull => exact .inr ⟨Nat.not_lt.mp hfull, rfl⟩

theorem Bus.capacity_publish (b : Bus) (e : Event) : (b.publish e).capacity = b.capacity := by
  unfold Bus.publish
  split <;> rfl

/-- A bus holds as many events as it was made for, and one at least. -/
theorem Bus.le_capacity_ofCapacity (n : Nat) : max n 1 ≤ (Bus.ofCapacity n).capacity := by
  unfold Bus.ofCapacity
  dsimp only
  split
  · omega
  · have hlog : n - 1 < 2 ^ ((n - 1).log2 + 1) := Nat.lt_log2_self
    rw [Nat.one_shiftLeft]
    omega

example : (Bus.ofCapacity 5).capacity = 8 := by decide

/-! ## The books on events that are on their way to the bus -/

/-- Each event that was created has as its number how many were created before, as far as 64 bits
    go, and was sent once or not yet. -/
structure Outbox.Tallies (o : Outbox) : Prop where
  counter : o.counter = .ofNat o.created.length
  numbered : o.created.map Event.seq = (List.range o.created.length).map (· % UInt64.size)
  sent : (o.published ++ o.unsent).Perm o.created

namespace Outbox

variable {d d' : Dispatcher} {e : Event} {before after : List Event}

theorem Tallies.create (h : d.toOutbox.Tallies) (e : Event) : (d.create e).toOutbox.Tallies where
  counter := by
    show d.counter + 1 = .ofNat (d.created ++ [_]).length
    rw [h.counter, List.length_append, UInt64.ofNat_add]
    rfl
  numbered := by
    have hnumber : (e.withNumber d.counter).seq = d.created.length % UInt64.size := by
      rw [Event.withNumber, h.counter]
      exact UInt64.toNat_ofNat'
    show (d.created ++ [_]).map Event.seq = (List.range (d.created ++ [_]).length).map _
    rw [List.map_append, h.numbered, List.length_append, List.map_singleton, hnumber]
    rw [List.length_singleton, List.range_succ, List.map_append, List.map_singleton]
  sent := by
    show (d.published ++ (d.unsent ++ [_])).Perm (d.created ++ [_])
    rw [← List.append_assoc]
    exact h.sent.append_right _

theorem Tallies.send (h : d.toOutbox.Tallies) (hunsent : d.unsent = before ++ e :: after) :
    (d.send e (before ++ after)).toOutbox.Tallies where
  counter := h.counter
  numbered := h.numbered
  sent := by
    have hmiddle : (e :: (before ++ after)).Perm d.unsent := by
      rw [hunsent]
      exact List.perm_middle.symm
    show (d.published ++ [e] ++ (before ++ after)).Perm d.created
    rw [List.append_assoc]
    exact (hmiddle.append_left d.published).trans h.sent

/-- Each step keeps the books on created events. -/
theorem Tallies.step (h : d.toOutbox.Tallies) (hstep : Dispatcher.Step d d') :
    d'.toOutbox.Tallies := by
  obtain heq | ⟨e, rfl⟩ | ⟨e, before, after, hunsent, rfl⟩ := hstep.cases_outbox
  · exact heq ▸ h
  · exact h.create e
  · exact h.send hunsent

section
variable {o : Outbox} (h : o.Tallies) (hlength : o.created.length ≤ UInt64.size)
include h hlength

/-- Until the counter begins again, events are numbered in the order in which they were created. -/
theorem Tallies.map_seq : o.created.map Event.seq = List.range o.created.length := by
  rw [h.numbered]
  refine (List.map_congr_left fun n hn => ?_).trans (List.map_id _)
  exact Nat.mod_eq_of_lt (Nat.lt_of_lt_of_le (List.mem_range.mp hn) hlength)

/-- Then no two events that were published have one number. -/
theorem Tallies.nodup : (o.published.map Event.seq).Nodup := by
  have hall : ((o.published ++ o.unsent).map Event.seq).Nodup := by
    rw [(h.sent.map _).nodup_iff, h.map_seq hlength]
    exact List.nodup_range
  rw [List.map_append] at hall
  exact hall.sublist (List.sublist_append_left ..)

/-- And their numbers ascend if they are sent in the order in which they were created. -/
theorem Tallies.ordered (horder : o.published.Sublist o.created) :
    o.published.Pairwise fun e f => e.seq < f.seq := by
  have hcreated : (o.created.map Event.seq).Pairwise (· < ·) := by
    rw [h.map_seq hlength]
    exact List.pairwise_lt_range
  exact (List.pairwise_map.mp hcreated).sublist horder

end

end Outbox

/-! ## The books of a dispatcher -/

namespace Dispatcher

variable {d d' : Dispatcher} {subscribers : List Subscriber}

/-- Each event that was published is accounted for: it was forwarded, is on the bus, or was given
    up. -/
structure Counts (d : Dispatcher) : Prop where
  capacity_pos : 0 < d.bus.capacity
  passed : (d.forwarded ++ d.bus.held).Sublist d.published
  balance : d.published.length =
    d.forwarded.length + skipped d.reports + d.bus.missed + d.bus.held.length
  missed : d.bus.held = [] → d.bus.missed = 0

/-- What the books of a dispatcher say. -/
structure KeepsBooks (subscribers : List Subscriber) (d : Dispatcher) : Prop extends Counts d where
  outbox : d.toOutbox.Tallies
  lanes : d.lanes.KeepBooks subscribers d.forwarded

theorem keepsBooks_start (capacity : Nat) (subscribers : List Subscriber) :
    (start capacity subscribers).KeepsBooks subscribers where
  capacity_pos :=
    Nat.lt_of_lt_of_le Nat.one_pos
      (Nat.le_trans (Nat.le_max_right capacity 1) (Bus.le_capacity_ofCapacity capacity))
  passed := List.Sublist.refl _
  balance := rfl
  missed _ := rfl
  outbox := ⟨rfl, rfl, .refl _⟩
  lanes := Lanes.keepBooks_ofSubscribers subscribers

/-- An event that is put on the bus is counted. -/
theorem Counts.put (h : d.Counts) {e : Event} (hput : d'.bus = d.bus.publish e)
    (hpublished : d'.published = d.published ++ [e]) (hforwarded : d'.forwarded = d.forwarded)
    (hreports : d'.reports = d.reports) : d'.Counts := by
  have hcapacity := h.capacity_pos
  have hbalance := h.balance
  obtain ⟨hroom, hbus⟩ | ⟨hfull, hbus⟩ := d.bus.publish_cases e
  · refine ⟨?_, ?_, ?_, ?_⟩
    · rwa [hput, hbus]
    · rw [hput, hbus, hpublished, hforwarded, ← List.append_assoc]
      exact h.passed.append_right [e]
    · rw [hput, hbus, hpublished, hforwarded, hreports, List.length_append, List.length_append,
        hbalance]
      simp only [List.length_singleton]
      omega
    · simp [hput, hbus]
  · -- the oldest event gives way
    have htail : d.bus.held.tail.length + 1 = d.bus.held.length := by
      rw [List.length_tail]
      omega
    refine ⟨?_, ?_, ?_, ?_⟩
    · rwa [hput, hbus]
    · have hless : (d.forwarded ++ d.bus.held.tail).Sublist d.published :=
        ((List.tail_sublist _).append_left _).trans h.passed
      rw [hput, hbus, hpublished, hforwarded, ← List.append_assoc]
      exact hless.append_right [e]
    · rw [hput, hbus, hpublished, hforwarded, hreports, List.length_append, List.length_append,
        hbalance]
      simp only [List.length_singleton]
      omega
    · simp [hput, hbus]

/-- Each step keeps the books on the bus. -/
theorem Counts.step (h : d.Counts) (hstep : Step d d') : d'.Counts := by
  have hbalance := h.balance
  obtain ⟨hbus, hpublished, hforwarded, hreports⟩ |
    ⟨e, hput, hpublished, hforwarded, hreports⟩ |
    ⟨e, rest, hmissed, hheld, hbus, hpublished, hforwarded, hreports⟩ |
    ⟨hmissed, hbus, hpublished, hforwarded, hreports⟩ := hstep.cases_bus
  · -- nothing happens to events
    have hskipped : skipped d'.reports = skipped d.reports := by
      obtain hreports | ⟨r, hr, hreports⟩ := hreports
      · rw [hreports]
      · rw [hreports, skipped_concat, hr, Nat.add_zero]
    refine ⟨?_, ?_, ?_, ?_⟩
    · rw [hbus]; exact h.capacity_pos
    · rw [hforwarded, hbus, hpublished]; exact h.passed
    · rw [hpublished, hforwarded, hskipped, hbus]; exact hbalance
    · rw [hbus]; exact h.missed
  · exact h.put hput hpublished hforwarded hreports
  · -- the oldest event on the bus is forwarded
    have hpassed := h.passed
    rw [hheld] at hpassed hbalance
    refine ⟨?_, ?_, ?_, ?_⟩
    · rw [hbus]; exact h.capacity_pos
    · rw [hforwarded, hbus, hpublished, List.append_assoc]; exact hpassed
    · rw [hpublished, hforwarded, hreports, hbus, List.length_append, hbalance]
      simp only [List.length_cons, List.length_nil]
      omega
    · rw [hbus]; exact fun _ => hmissed
  · -- a loss is reported
    refine ⟨?_, ?_, ?_, ?_⟩
    · rw [hbus]; exact h.capacity_pos
    · rw [hforwarded, hbus, hpublished]; exact h.passed
    · rw [hpublished, hforwarded, hreports, hbus, skipped_concat, hbalance]
      simp only [Report.skipped]
      omega
    · rw [hbus]; exact fun _ => rfl

/-- Each step keeps the books. -/
theorem KeepsBooks.step (h : d.KeepsBooks subscribers) (hstep : Step d d') :
    d'.KeepsBooks subscribers where
  toCounts := h.toCounts.step hstep
  outbox := h.outbox.step hstep
  lanes := by
    obtain ⟨hlanes, hforwarded⟩ | ⟨e, hlanes, hforwarded⟩ |
      ⟨now, ls, hlanes, hforwarded, hnow, hworks⟩ := hstep.cases_lanes
    · rw [hlanes, hforwarded]
      exact h.lanes
    · rw [hlanes, hforwarded]
      exact h.lanes.emit e
    · rw [hlanes, hforwarded]
      exact h.lanes.goOn hnow hworks

/-- The books are right at all times. -/
theorem KeepsBooks.steps (h : d.KeepsBooks subscribers) (hsteps : Steps d d') :
    d'.KeepsBooks subscribers := by
  induction hsteps with
  | refl => exact h
  | tail _ hstep ih => exact ih.step hstep

end Dispatcher

end Steward.Delivery
