import Mathlib.Data.List.Induction
import Steward.Proofs.Delivery.Books
import Steward.Proofs.Delivery.Timetable

/-!
# What a caller does with lanes

One caller emits events, waits for flushes and lets time pass, one after the other. `Lanes.after` is
the set of lanes behind all that, and `Lanes.offers` tells what was offered to one of the lanes.

Results:
* `Lanes.goesOn_advance`, `Lanes.goesOn_flush`: what lanes do while their caller waits.
* `Lanes.worksOff_advance`, `Lanes.worksOff_flushing`: what a lane has done up to any moment of
  that.
* `Lanes.isRegular_after`: what holds of all lanes at all times.
-/

namespace Steward.Delivery

/-- What a caller does. -/
inductive Action where
  /-- Emits an event. -/
  | emit (e : Event)
  /-- Waits for a flush. -/
  | flush
  /-- Lets some time pass. -/
  | sleep (time : Nat)
  deriving DecidableEq, Repr

/-- An event that is offered to a lane. -/
structure Offer where
  /-- The event. -/
  event : Event
  /-- When it is offered. -/
  time : Nat
  /-- How much waits in the queue of the lane at that time. -/
  waiting : Nat
  deriving DecidableEq, Repr

namespace Lanes

/-- What an action does to a set of lanes. -/
def perform (s : Lanes) : Action → Lanes
  | .emit e => s.emit e
  | .flush => s.flush
  | .sleep time => s.advance (s.now + time)

/-- A set of lanes for some subscribers, after some actions. -/
def after (subscribers : List Subscriber) (actions : List Action) : Lanes :=
  actions.foldl perform (ofSubscribers subscribers)

/-- What is noted of some actions, in order. -/
def gather {α : Type} (note : Lanes → Action → List α) (s : Lanes) : List Action → List α
  | [] => []
  | a :: actions => note s a ++ gather note (s.perform a) actions

/-- What an action offers to the lane at a place. -/
def offersOf (i : Nat) (s : Lanes) : Action → List Offer
  | .emit e => (s.lanes[i]?.map fun l => ⟨e, s.now, l.queue.length⟩).toList
  | _ => []

/-- What some actions offer to the lane at a place. -/
def offers (subscribers : List Subscriber) (i : Nat) (actions : List Action) : List Offer :=
  gather (offersOf i) (ofSubscribers subscribers) actions

/-- The lanes at a moment of a flush that begins now, what happens from that moment on excluded. A
    lane either waits for its marker or has it. -/
def flushing (s : Lanes) (t : Nat) : List Lane :=
  s.lanes.zipWith (fun l m => if m.1 < t then m.2.run m.1 t else l.run s.now t)
    (markAll s.now s.now s.lanes).2

variable {s s' : Lanes} {subscribers : List Subscriber} {actions : List Action} {a : Action}
  {e : Event} {start now t i : Nat} {ls : List Lane} {l l' : Lane}

theorem gather_concat {α : Type} (note : Lanes → Action → List α) (s : Lanes)
    (actions : List Action) (a : Action) : gather note s (actions ++ [a]) =
      gather note s actions ++ note (actions.foldl perform s) a := by
  induction actions generalizing s with
  | nil => simp [gather]
  | cons b actions ih =>
    rw [List.cons_append, gather, gather, ih, List.append_assoc, List.foldl_cons]

theorem after_concat (subscribers : List Subscriber) (actions : List Action) (a : Action) :
    after subscribers (actions ++ [a]) = (after subscribers actions).perform a :=
  List.foldl_concat ..

theorem offers_concat (subscribers : List Subscriber) (i : Nat) (actions : List Action)
    (a : Action) : offers subscribers i (actions ++ [a]) =
      offers subscribers i actions ++ offersOf i (after subscribers actions) a :=
  gather_concat ..

end Lanes

/-! ## Lists side by side -/

section
variable {α β γ : Type} {R : α → β → Prop} {S : α → γ → Prop} {f : α → β → γ} {g : β → γ}
  {xs : List α} {ys : List β}

theorem forall₂_zipWith (h : List.Forall₂ R xs ys) (hf : ∀ x y, R x y → S x (f x y)) :
    List.Forall₂ S xs (xs.zipWith f ys) := by
  induction h with
  | nil => exact .nil
  | cons hR _ ih => exact .cons (hf _ _ hR) ih

theorem zipWith_eq_map (h : List.Forall₂ R xs ys) (hf : ∀ x y, R x y → f x y = g y) :
    xs.zipWith f ys = ys.map g := by
  induction h with
  | nil => rfl
  | cons hR _ ih => rw [List.zipWith_cons_cons, List.map_cons, hf _ _ hR, ih]

end

/-! ## Lanes between two actions -/

namespace Lane

/-- What holds of a lane between two actions: it holds no markers and no more events than it has
    room for, and its subscriber handles one event after the other. -/
structure IsRegular (now : Nat) (l : Lane) : Prop extends IsOnTime now l where
  isPlain : l.IsPlain
  fits : l.queue.length ≤ l.limit
  spaced : (l.timetable now).Pairwise fun h k => h.time + l.subscriber.pause ≤ k.time

variable {l l' : Lane} {start now : Nat}

theorem isRegular_new (sub : Subscriber) : IsRegular 0 { subscriber := sub } where
  handled := by simp
  current := by simp
  isPlain := by simp [IsPlain]
  fits := Nat.zero_le _
  spaced := List.Pairwise.nil

theorem IsRegular.proceeds (h : l.IsRegular start) (hl : Proceeds start l now l')
    (hplain : l'.IsPlain) : l'.IsRegular now where
  toIsOnTime := hl.isOnTime h.toIsOnTime
  isPlain := hplain
  fits := hl.fits h.fits
  spaced := by
    rw [hl.timetable, hl.subscriber]
    exact h.spaced

theorem IsRegular.offer (h : l.IsRegular now) (e : Event) : (l.offer e).IsRegular now := by
  cases hfull : l.isFull with
  | true =>
    have hoffer : l.offer e = { l with dropped := l.dropped ++ [e] } := if_pos hfull
    rw [hoffer]
    exact ⟨⟨h.handled, h.current⟩, h.isPlain, h.fits, h.spaced⟩
  | false =>
    have hoffer : l.offer e = l.enqueue (.event e) := if_neg (by simp [hfull])
    refine ⟨?_, isPlain_offer h.isPlain e, ?_, ?_⟩
    · rw [hoffer]
      exact ⟨h.handled, h.current⟩
    · have hroom := length_queue_lt_of_isFull hfull
      rw [hoffer]
      show (l.queue ++ [Envelope.event e]).length ≤ l.limit
      rw [List.length_append]
      exact hroom
    · rw [timetable_offer hfull, l.subscriber_offer, List.pairwise_append]
      refine ⟨h.spaced, List.pairwise_singleton .., fun k hk j hj => ?_⟩
      obtain rfl := List.mem_singleton.mp hj
      have hlatest : k.time ≤ l.idleAt now := by
        rw [idleAt_eq_latest h.toIsOnTime]
        exact le_latest_of_mem now hk
      show k.time + _ ≤ l.idleAt now + _
      omega

/-- A marker that is put into a lane between two actions. -/
theorem IsRegular.proceeds_marked (h : l.IsRegular start) (hnow : start ≤ now) :
    Proceeds start l ((l.run start now).mark now).1 ((l.run start now).mark now).2 := by
  have hrun := proceeds_run l hnow (.inl rfl)
  exact hrun.trans (proceeds_mark (hrun.isOnTime h.toIsOnTime) (hrun.fits h.fits))

end Lane

/-! ## While the caller waits -/

namespace Lanes

variable {s s' : Lanes} {subscribers : List Subscriber} {actions : List Action} {a : Action}
  {e : Event} {start now t i : Nat} {ls : List Lane} {l l' : Lane}

/-- How markers are put into lanes. -/
theorem forall₂_markAll (hnow : start ≤ now) (ls : List Lane) :
    List.Forall₂ (fun l m => ∃ t, start ≤ t ∧ m = (l.run start t).mark t ∧
      m.1 ≤ (markAll start now ls).1) ls (markAll start now ls).2 := by
  induction ls generalizing now with
  | nil => exact .nil
  | cons l ls ih =>
    have hmark := Lane.now_le_mark l start now
    exact .cons ⟨now, hnow, rfl, now_le_markAll start _ ls⟩ (ih (Nat.le_trans hnow hmark))

/-- What a set of lanes does while its caller waits. -/
structure GoesOn (s s' : Lanes) : Prop where
  eq_goOn : s' = s.goOn s'.now s'.lanes
  now_le : s.now ≤ s'.now
  proceeds : List.Forall₂ (fun l l' => l.Proceeds s.now s'.now l') s.lanes s'.lanes
  isPlain : ∀ l' ∈ s'.lanes, l'.IsPlain

/-- Lanes that are run from one moment to another. -/
theorem goesOn_advance (hs : ∀ l ∈ s.lanes, l.IsRegular s.now) (hnow : s.now ≤ t) :
    s.GoesOn (s.advance t) := by
  have hmax : (s.advance t).now = t := Nat.max_eq_right hnow
  refine ⟨rfl, ?_, ?_, ?_⟩
  · rw [hmax]
    exact hnow
  · rw [hmax]
    apply List.forall₂_map_right_iff.mpr
    apply List.forall₂_same.mpr
    intro l _
    exact Lane.proceeds_run l hnow (.inl rfl)
  · intro l' hl'
    obtain ⟨l, hl, rfl⟩ := List.mem_map.mp hl'
    exact Lane.isPlain_run (hs l hl).isPlain s.now t

/-- What a lane does until it has its marker. -/
theorem proceeds_markAll (hs : ∀ l ∈ s.lanes, l.IsRegular s.now) :
    List.Forall₂ (fun l m => l.Proceeds s.now m.1 m.2 ∧ s.now ≤ m.1 ∧
      m.1 ≤ (markAll s.now s.now s.lanes).1) s.lanes (markAll s.now s.now s.lanes).2 := by
  have hmarked := (List.forall₂_and_left _ _).mpr ⟨hs, forall₂_markAll (Nat.le_refl s.now) s.lanes⟩
  apply hmarked.imp
  rintro l _ ⟨hl, t, ht, rfl, hlast⟩
  have hmark := Lane.now_le_mark l s.now t
  exact ⟨hl.proceeds_marked ht, Nat.le_trans ht hmark, hlast⟩

/-- Lanes that are flushed. -/
theorem goesOn_flush (hs : ∀ l ∈ s.lanes, l.IsRegular s.now) : s.GoesOn s.flush := by
  refine ⟨rfl, now_le_now_flush s, ?_, ?_⟩
  · show List.Forall₂ _ s.lanes
      ((markAll s.now s.now s.lanes).2.map fun m => m.2.run m.1 (s.flush.now + 1))
    apply List.forall₂_map_right_iff.mpr
    apply (proceeds_markAll hs).imp
    rintro l m ⟨hmarked, -, hlast⟩
    have hdone := Nat.le_trans hlast (le_now_flush s).1
    exact hmarked.trans (Lane.proceeds_run m.2 hdone (.inr rfl))
  · intro l' hl'
    exact Lane.isPlain_of_queue (isIdle_flush s l' hl').queue

/-- What a lane has done up to a moment if its caller lets time pass. -/
theorem worksOff_advance (hs : ∀ l ∈ s.lanes, l.IsRegular s.now) (ht : s.now < t) :
    List.Forall₂ (fun l l' => l.Proceeds s.now t l' ∧
      l'.handled = (l.timetable s.now).filter fun h => h.time < t) s.lanes (s.advance t).lanes := by
  apply List.forall₂_map_right_iff.mpr
  apply List.forall₂_same.mpr
  intro l hl
  exact ⟨Lane.proceeds_run l (Nat.le_of_lt ht) (.inl rfl),
    (hs l hl).toIsOnTime.handled_run_eq ht⟩

/-- What a lane has done up to a moment if its caller waits for a flush. -/
theorem worksOff_flushing (hs : ∀ l ∈ s.lanes, l.IsRegular s.now) (ht : s.now < t) :
    List.Forall₂ (fun l l' => l.Proceeds s.now t l' ∧
      l'.handled = (l.timetable s.now).filter fun h => h.time < t) s.lanes (s.flushing t) := by
  apply forall₂_zipWith ((List.forall₂_and_left _ _).mpr ⟨hs, proceeds_markAll hs⟩)
  rintro l m ⟨hl, hmarked, -, -⟩
  split
  · next hlt =>
    have hhandled := (hmarked.isOnTime hl.toIsOnTime).handled_run_eq hlt
    rw [hmarked.timetable] at hhandled
    exact ⟨hmarked.trans (Lane.proceeds_run m.2 (Nat.le_of_lt hlt) (.inl rfl)), hhandled⟩
  · exact ⟨Lane.proceeds_run l (Nat.le_of_lt ht) (.inl rfl),
      hl.toIsOnTime.handled_run_eq ht⟩

/-- The last moment of a flush. -/
theorem flushing_now_flush (hs : ∀ l ∈ s.lanes, l.IsRegular s.now) :
    s.flushing (s.flush.now + 1) = s.flush.lanes := by
  apply zipWith_eq_map (proceeds_markAll hs)
  rintro l m ⟨-, -, hlast⟩
  have hdone := Nat.le_trans hlast (le_now_flush s).1
  exact if_pos (Nat.lt_succ_of_le hdone)

/-- An action is the emission of an event, or the lanes go on while it is carried out. -/
theorem perform_cases (hs : ∀ l ∈ s.lanes, l.IsRegular s.now) (a : Action) :
    (∃ e, a = .emit e) ∨ ((∀ i, offersOf i s a = []) ∧ s.GoesOn (s.perform a)) := by
  cases a with
  | emit e => exact .inl ⟨e, rfl⟩
  | flush => exact .inr ⟨fun i => rfl, goesOn_flush hs⟩
  | sleep time => exact .inr ⟨fun i => rfl, goesOn_advance hs (Nat.le_add_right ..)⟩

theorem isRegular_perform (hs : ∀ l ∈ s.lanes, l.IsRegular s.now) (a : Action) :
    ∀ l ∈ (s.perform a).lanes, l.IsRegular (s.perform a).now := by
  intro l' hl'
  obtain ⟨e, rfl⟩ | ⟨-, hgo⟩ := perform_cases hs a
  · obtain ⟨l, hl, rfl⟩ := List.mem_map.mp hl'
    exact (hs l hl).offer e
  · obtain ⟨l, hl, hproceeds⟩ := exists_of_mem_right hgo.proceeds hl'
    exact (hs l hl).proceeds hproceeds (hgo.isPlain l' hl')

/-- What holds of all lanes at all times. -/
theorem isRegular_after (subscribers : List Subscriber) (actions : List Action) :
    ∀ l ∈ (after subscribers actions).lanes, l.IsRegular (after subscribers actions).now := by
  induction actions using List.reverseRecOn with
  | nil =>
    intro l hl
    obtain ⟨sub, -, rfl⟩ := List.mem_map.mp hl
    exact Lane.isRegular_new sub
  | append_singleton actions a ih =>
    rw [after_concat]
    exact isRegular_perform ih a

theorem subscriber_perform (hs : ∀ l ∈ s.lanes, l.IsRegular s.now) (a : Action) :
    (s.perform a).lanes.map Lane.subscriber = s.lanes.map Lane.subscriber := by
  obtain ⟨e, rfl⟩ | ⟨-, hgo⟩ := perform_cases hs a
  · simp [perform, emit, Lane.subscriber_offer]
  · exact map_eq_of_forall₂ hgo.proceeds fun l l' h => h.subscriber

/-- There is one lane for each subscriber. -/
theorem subscriber_after (subscribers : List Subscriber) (actions : List Action) :
    (after subscribers actions).lanes.map Lane.subscriber = subscribers := by
  induction actions using List.reverseRecOn with
  | nil => exact (keepBooks_ofSubscribers subscribers).subscribers
  | append_singleton actions a ih =>
    rw [after_concat, subscriber_perform (isRegular_after subscribers actions), ih]

theorem getElem?_emit (hl : s.lanes[i]? = some l) (e : Event) :
    (s.perform (.emit e)).lanes[i]? = some (l.offer e) := by
  show (List.map _ _)[i]? = _
  rw [List.getElem?_map, hl]
  rfl

theorem getElem?_advance (hl : s.lanes[i]? = some l) (t : Nat) :
    (s.advance t).lanes[i]? = some (l.run s.now t) := by
  show (List.map _ _)[i]? = _
  rw [List.getElem?_map, hl]
  rfl

end Lanes

end Steward.Delivery
