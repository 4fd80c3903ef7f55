import Mathlib.Data.List.Zip
import Steward.Proofs.Delivery.Caller

/-!
# What is reported about lanes

Each event that a lane drops has to be reported, and each one that its subscriber breaks down on.
`Lanes.records` tells what had to be reported about one lane of a set after some actions. The
reports of the set are just these, those about each lane in order.

Results:
* `Lanes.notices_perform`: what an action has reported.
* `Lanes.notices_after`, `Lanes.records_sublist`: the reports of a set are those about its lanes.
* `Lanes.filter_notices_after`: the reports under a name that only one subscriber has.
-/

namespace Steward.Delivery

/-! ## Several lists in one -/

section
variable {α : Type} {xs : List α}

theorem flatten_eq_flatMap_range (xss : List (List α)) :
    xss.flatten = (List.range xss.length).flatMap fun i => xss[i]?.getD [] := by
  have hmap : (List.range xss.length).map (fun i => xss[i]?.getD []) = xss := by
    apply List.ext_getElem
    · simp
    · intro i h h'
      simp [List.getElem?_eq_getElem h']
  rw [List.flatMap_def, hmap]

/-- What is left of several lists if only members of one of them are kept. -/
theorem filter_flatten {p : α → Bool} {xss : List (List α)} {i : Nat} (hi : xss[i]? = some xs)
    (hothers : ∀ j ys, j ≠ i → xss[j]? = some ys → ∀ y ∈ ys, p y = false) :
    xss.flatten.filter p = xs.filter p := by
  induction xss generalizing i with
  | nil => simp at hi
  | cons zs xss ih =>
    rw [List.flatten_cons, List.filter_append]
    cases i with
    | zero =>
      obtain rfl : zs = xs := by simpa using hi
      have hnone : xss.flatten.filter p = [] := by
        apply List.filter_eq_nil_iff.mpr
        intro y hy
        obtain ⟨ys, hys, hy⟩ := List.mem_flatten.mp hy
        obtain ⟨j, hj⟩ := List.mem_iff_getElem?.mp hys
        simp [hothers (j + 1) ys (Nat.succ_ne_zero j) (by simpa using hj) y hy]
      rw [hnone, List.append_nil]
    | succ i =>
      have hnone : zs.filter p = [] := by
        apply List.filter_eq_nil_iff.mpr
        intro y hy
        simp [hothers 0 zs (Nat.succ_ne_zero i).symm rfl y hy]
      rw [hnone, List.nil_append]
      apply ih (by simpa using hi)
      intro j ys hj hys
      exact hothers (j + 1) ys (by omega) (by simpa using hys)

end

/-! ## What has to be reported -/

/-- What has to be reported of a lane that was `l` at the time `now` and is `l'` after an action:
    each event that was dropped, and each one that the subscriber broke down on. -/
def Lane.reports (now : Nat) (l l' : Lane) : List Notice :=
  ((l'.dropped.drop l.dropped.length).map fun e => ⟨l'.subscriber.name, e.kind, .dropped, now⟩) ++
    Lanes.breakNotices l l'

namespace Lanes

/-- What has to be reported of each lane behind an action. -/
def reportsOf (s : Lanes) (a : Action) : List (List Notice) :=
  s.lanes.zipWith (Lane.reports s.now) (s.perform a).lanes

/-- What has to be reported of the lane at a place behind some actions. -/
def records (subscribers : List Subscriber) (i : Nat) (actions : List Action) : List Notice :=
  gather (fun s a => (s.reportsOf a)[i]?.getD []) (ofSubscribers subscribers) actions

variable {s : Lanes} {subscribers : List Subscriber} {actions : List Action} {a : Action}
  {e : Event} {start now t i : Nat} {l l' : Lane}

theorem records_concat (subscribers : List Subscriber) (i : Nat) (actions : List Action)
    (a : Action) : records subscribers i (actions ++ [a]) =
      records subscribers i actions ++ ((after subscribers actions).reportsOf a)[i]?.getD [] :=
  gather_concat ..

/-! ## What is reported of a lane -/

/-- What is reported of a lane to which an event is offered. -/
theorem reports_offer (l : Lane) (now : Nat) (e : Event) : l.reports now (l.offer e) =
    if l.isFull then [⟨l.subscriber.name, e.kind, .dropped, now⟩] else [] := by
  have hbroken : breakNotices l (l.offer e) = [] := by simp [breakNotices, Lane.handled_offer]
  rw [Lane.reports, hbroken, l.subscriber_offer, List.append_nil]
  obtain ⟨hfull, hdropped, -⟩ | ⟨hfull, hdropped, -⟩ := l.offer_cases e
  · simp [hfull, hdropped]
  · simp [hfull, hdropped]

/-- What is reported of a lane that goes on. -/
theorem reports_proceeds (h : l.Proceeds start t l') (now : Nat) :
    l.reports now l' = breakNotices l l' := by
  simp [Lane.reports, h.dropped]

theorem subscriber_of_mem_reports {n : Notice} (hn : n ∈ l.reports now l') :
    n.subscriber = l'.subscriber.name := by
  rcases List.mem_append.mp hn with hn | hn
  · obtain ⟨e, -, rfl⟩ := List.mem_map.mp hn
    rfl
  · obtain ⟨h, -, rfl⟩ := List.mem_map.mp hn
    rfl

/-- What a lane reports while it goes on is in order of time. -/
theorem pairwise_breakNotices (h : l'.IsRegular now) (l : Lane) :
    (breakNotices l l').Pairwise fun m n => m.time ≤ n.time := by
  apply List.pairwise_map.mpr
  have hhandled : l'.handled.Pairwise fun h k => h.time ≤ k.time := by
    apply (h.spaced.sublist (l'.handled_prefix_timetable now).sublist).imp
    intro h k hle
    omega
  exact (hhandled.sublist (List.drop_sublist ..)).sublist List.filter_sublist

/-! ## What an action has reported -/

/-- The lanes that are full drop the event. -/
theorem flatten_reportsOf_emit (s : Lanes) (e : Event) :
    (s.reportsOf (.emit e)).flatten = dropNotices s.now s.lanes e := by
  have hreports : s.reportsOf (.emit e) = s.lanes.map fun l =>
      if l.isFull then [⟨l.subscriber.name, e.kind, .dropped, s.now⟩] else [] := by
    show s.lanes.zipWith _ (s.lanes.map fun l => l.offer e) = _
    rw [List.zipWith_map_right, List.zipWith_self]
    simp only [reports_offer]
  rw [hreports]
  induction s.lanes with
  | nil => rfl
  | cons l ls ih => by_cases hl : l.isFull <;> simp [dropNotices, hl, ih]

theorem reportsOf_of_goesOn (h : s.GoesOn (s.perform a)) :
    s.reportsOf a = s.lanes.zipWith breakNotices (s.perform a).lanes := by
  apply List.zipWith_congr
  apply h.proceeds.imp
  intro l l' hproceeds
  exact reports_proceeds hproceeds s.now

/-- Reports that are in order of time keep their order when they are sorted among others. -/
theorem sublist_sorted {ms ns : List Notice} (hordered : ms.Pairwise fun m n => m.time ≤ n.time)
    (h : ms.Sublist ns) : ms.Sublist (ns.mergeSort fun m n => m.time ≤ n.time) := by
  apply List.sublist_mergeSort
  · intro k m n hkm hmn
    simp only [decide_eq_true_eq] at hkm hmn ⊢
    omega
  · intro m n
    simp only [Bool.or_eq_true, decide_eq_true_eq]
    omega
  · simpa using hordered
  · exact h

/-- What an action has reported, in some order that keeps the one of each lane. -/
theorem notices_perform (hs : ∀ l ∈ s.lanes, l.IsRegular s.now) (a : Action) :
    ∃ news, (s.perform a).notices = s.notices ++ news ∧ news.Perm (s.reportsOf a).flatten ∧
      ∀ ns ∈ s.reportsOf a, ns.Sublist news := by
  obtain ⟨e, rfl⟩ | ⟨-, hgo⟩ := perform_cases hs a
  · refine ⟨dropNotices s.now s.lanes e, rfl, ?_, ?_⟩
    · rw [flatten_reportsOf_emit]
    · rw [← flatten_reportsOf_emit]
      intro ns hns
      exact List.sublist_flatten_of_mem hns
  · have hregular := isRegular_perform hs a
    refine ⟨_, congrArg notices hgo.eq_goOn, ?_, ?_⟩
    · rw [reportsOf_of_goesOn hgo]
      exact List.mergeSort_perm ..
    · intro ns hns
      rw [reportsOf_of_goesOn hgo] at hns
      apply sublist_sorted ?_ (List.sublist_flatten_of_mem hns)
      obtain ⟨i, hi⟩ := List.mem_iff_getElem?.mp hns
      rw [List.getElem?_zipWith] at hi
      split at hi
      · next l l' _ hl' =>
        obtain rfl := Option.some.inj hi
        exact pairwise_breakNotices (hregular l' (List.mem_of_getElem? hl')) l
      · simp at hi

theorem getElem?_reportsOf (hl : s.lanes[i]? = some l)
    (hl' : (s.perform a).lanes[i]? = some l') :
    (s.reportsOf a)[i]?.getD [] = l.reports s.now l' := by
  rw [reportsOf, List.getElem?_zipWith, hl, hl']
  rfl

theorem length_reportsOf (subscribers : List Subscriber) (actions : List Action) (a : Action) :
    ((after subscribers actions).reportsOf a).length = subscribers.length := by
  have hbefore := congrArg List.length (subscriber_after subscribers actions)
  have hafter := congrArg List.length (subscriber_after subscribers (actions ++ [a]))
  rw [after_concat] at hafter
  rw [List.length_map] at hbefore hafter
  rw [reportsOf, List.length_zipWith, hbefore, hafter, Nat.min_self]

/-! ## The reports of a set -/

/-- The reports of a set are those about its lanes. -/
theorem notices_after (subscribers : List Subscriber) (actions : List Action) :
    (after subscribers actions).notices.Perm
      ((List.range subscribers.length).flatMap fun i => records subscribers i actions) := by
  induction actions using List.reverseRecOn with
  | nil => simp [after, ofSubscribers, records, gather]
  | append_singleton actions a ih =>
    obtain ⟨news, hnotices, hperm, -⟩ := notices_perform (isRegular_after subscribers actions) a
    rw [flatten_eq_flatMap_range, length_reportsOf] at hperm
    rw [after_concat, hnotices]
    simp only [records_concat]
    exact (ih.append hperm).trans (List.flatMap_append_perm ..)

/-- The reports about a lane are in the order of the reports of the set. -/
theorem records_sublist (subscribers : List Subscriber) (i : Nat) (actions : List Action) :
    (records subscribers i actions).Sublist (after subscribers actions).notices := by
  induction actions using List.reverseRecOn with
  | nil => exact List.nil_sublist _
  | append_singleton actions a ih =>
    obtain ⟨news, hnotices, -, hsublist⟩ :=
      notices_perform (isRegular_after subscribers actions) a
    rw [records_concat, after_concat, hnotices]
    apply ih.append
    cases hi : ((after subscribers actions).reportsOf a)[i]? with
    | none => exact List.nil_sublist _
    | some ns => exact hsublist ns (List.mem_of_getElem? hi)

theorem subscriber_of_mem_records {n : Notice} (hn : n ∈ records subscribers i actions) :
    (subscribers[i]?).map Subscriber.name = some n.subscriber := by
  induction actions using List.reverseRecOn with
  | nil => simp [records, gather] at hn
  | append_singleton actions a ih =>
    rw [records_concat, List.mem_append] at hn
    rcases hn with hn | hn
    · exact ih hn
    · rw [reportsOf, List.getElem?_zipWith] at hn
      split at hn
      · next l l' _ hl' =>
        rw [← after_concat] at hl'
        have hsub : (subscribers[i]?) = some l'.subscriber := by
          rw [← subscriber_after subscribers (actions ++ [a]), List.getElem?_map, hl']
          rfl
        rw [hsub, subscriber_of_mem_reports hn]
        rfl
      · simp at hn

/-- What the reports of a set say about a subscriber whose name no other one has. -/
theorem filter_notices_after {sub : Subscriber} (hi : subscribers[i]? = some sub)
    (hname : ∀ j other, j ≠ i → subscribers[j]? = some other → other.name ≠ sub.name)
    (actions : List Action) :
    (after subscribers actions).notices.filter (fun n => n.subscriber = sub.name) =
      records subscribers i actions := by
  have hown : (records subscribers i actions).filter (fun n => n.subscriber = sub.name) =
      records subscribers i actions := by
    apply List.filter_eq_self.mpr
    intro n hn
    have heq := subscriber_of_mem_records hn
    rw [hi] at heq
    exact decide_eq_true (Option.some.inj heq).symm
  have hothers : ∀ j ns, j ≠ i →
      ((List.range subscribers.length).map fun k => records subscribers k actions)[j]? = some ns →
      ∀ n ∈ ns, decide (n.subscriber = sub.name) = false := by
    intro j ns hj hns n hn
    rw [List.getElem?_map, Option.map_eq_some_iff] at hns
    obtain ⟨k, hk, rfl⟩ := hns
    obtain ⟨hlt, rfl⟩ := List.getElem?_eq_some_iff.mp hk
    rw [List.getElem_range] at hn
    obtain ⟨other, hother, heq⟩ := Option.map_eq_some_iff.mp (subscriber_of_mem_records hn)
    apply decide_eq_false
    rw [← heq]
    exact hname j other hj hother
  have hat : ((List.range subscribers.length).map fun k => records subscribers k actions)[i]? =
      some (records subscribers i actions) := by
    have hlt : i < subscribers.length := (List.getElem?_eq_some_iff.mp hi).1
    simp [hlt]
  have hsublist := (records_sublist subscribers i actions).filter fun n => n.subscriber = sub.name
  have hperm := (notices_after subscribers actions).filter fun n => n.subscriber = sub.name
  rw [List.flatMap_def, filter_flatten hat hothers, hown] at hperm
  rw [hown] at hsublist
  exact (hsublist.eq_of_length hperm.length_eq.symm).symm

end Lanes

end Steward.Delivery
