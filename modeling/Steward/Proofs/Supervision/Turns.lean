import Mathlib.Data.List.SplitBy
import Steward.Proofs.Supervision.Life
import Steward.Supervision.Course

/-!
# The turns of one worker

What a worker does is its story. A worker cuts its life into turns, in each of which all is done at
one time; a turn that it takes is the beginning of what is left of its story
(`Actor.IsTimely.story_remaining`). What several workers do in a round is told apart by their
positions (`Actor.filter_flatMap_acts`).
-/

namespace Steward.Supervision

/-! ## The story of one worker -/

/-- What is done in some entries, and at which time. -/
def story (es : List Entry) : List (Nat × Deed) := es.map fun e => (e.moment.time, e.deed)

/-- What the worker at a position does in a round. -/
def Round.deedsOf (p : Nat) (r : Round) : List (Nat × Deed) :=
  (r.acts.filter fun a => a.worker = some p).map fun a => (r.time, a.deed)

/-- What the worker at a position does in some rounds. -/
def deedsOf (p : Nat) (rs : List Round) : List (Nat × Deed) := rs.flatMap (Round.deedsOf p)

variable {es fs : List Entry} {p time : Nat} {a : Actor} {rs qs : List Round}

@[simp] theorem story_nil : story [] = [] := rfl

@[simp] theorem story_append : story (es ++ fs) = story es ++ story fs := List.map_append

@[simp] theorem deedsOf_nil : deedsOf p [] = [] := rfl

@[simp] theorem deedsOf_append : deedsOf p (rs ++ qs) = deedsOf p rs ++ deedsOf p qs :=
  List.flatMap_append

theorem deedsOf_cons (r : Round) : deedsOf p (r :: rs) = r.deedsOf p ++ deedsOf p rs := rfl

theorem mem_deedsOf {x : Nat × Deed} :
    x ∈ deedsOf p rs ↔ ∃ r ∈ rs, ⟨some p, x.2⟩ ∈ r.acts ∧ r.time = x.1 := by
  obtain ⟨time, deed⟩ := x
  simp only [deedsOf, Round.deedsOf, List.mem_flatMap, List.mem_map, List.mem_filter,
    decide_eq_true_eq, Prod.mk.injEq]
  constructor
  · rintro ⟨r, hr, a, ⟨ha, hw⟩, ht, hd⟩
    refine ⟨r, hr, ?_, ht⟩
    rw [← hw, ← hd]
    exact ha
  · rintro ⟨r, hr, ha, ht⟩
    exact ⟨r, hr, _, ⟨ha, rfl⟩, ht, rfl⟩

/-! ## Workers that take turns -/

namespace Actor

/-- The entries that are still to come. -/
def remaining (a : Actor) : List Entry := a.turns.flatten

/-- There is something to do in each turn, all of it at one time, and time does not go backwards. -/
structure IsTimely (a : Actor) : Prop where
  ne_nil : ∀ turn ∈ a.turns, turn ≠ []
  instant : ∀ turn ∈ a.turns, ∀ e ∈ turn, ∀ f ∈ turn, e.moment.time = f.moment.time
  sorted : a.remaining.Pairwise fun e f => e.moment.time ≤ f.moment.time

theorem IsTimely.nextTime_eq_none_iff (h : a.IsTimely) : a.nextTime = none ↔ a.turns = [] := by
  unfold nextTime
  cases hturns : a.turns with
  | nil => simp
  | cons turn rest =>
    have hne : turn ≠ [] := h.ne_nil turn (by simp [hturns])
    cases turn with
    | nil => exact absurd rfl hne
    | cons e es => simp

/-- The next turn of a worker that is due at a time. -/
theorem IsTimely.turns_eq (h : a.IsTimely) (hdue : a.nextTime = some time) :
    ∃ turn rest, a.turns = turn :: rest ∧ turn ≠ [] ∧ ∀ e ∈ turn, e.moment.time = time := by
  unfold nextTime at hdue
  cases hturns : a.turns with
  | nil => simp [hturns] at hdue
  | cons turn rest =>
    have hmem : turn ∈ a.turns := by simp [hturns]
    refine ⟨turn, rest, rfl, h.ne_nil turn hmem, fun e he => ?_⟩
    cases turn with
    | nil => simp at he
    | cons f es =>
      have hf : f.moment.time = time := by simpa [hturns] using hdue
      rw [← hf]
      exact h.instant _ hmem e he f List.mem_cons_self

theorem IsTimely.afterTurn (h : a.IsTimely) : a.afterTurn.IsTimely where
  ne_nil turn ht := h.ne_nil turn (List.mem_of_mem_tail ht)
  instant turn ht := h.instant turn (List.mem_of_mem_tail ht)
  sorted := by
    have hsorted := h.sorted
    unfold remaining at hsorted ⊢
    unfold Actor.afterTurn
    cases hturns : a.turns with
    | nil => simp
    | cons turn rest =>
      rw [hturns, List.flatten_cons] at hsorted
      exact (List.pairwise_append.mp hsorted).2.1

/-- A turn is told, and the rest is still to come. -/
theorem IsTimely.story_remaining (h : a.IsTimely) (hdue : a.nextTime = some time) :
    story a.remaining =
      (a.acts.map fun act => (time, act.deed)) ++ story a.afterTurn.remaining := by
  obtain ⟨turn, rest, hturns, -, htime⟩ := h.turns_eq hdue
  have hacts : (a.acts.map fun act => (time, act.deed)) = story turn := by
    simp only [acts, hturns, List.head?_cons, Option.getD_some, List.map_map, story]
    refine List.map_congr_left fun e he => ?_
    rw [htime e he]
    rfl
  rw [hacts, ← story_append]
  simp [remaining, Actor.afterTurn, hturns]

/-- The turn that comes next, and the rest. -/
theorem IsTimely.remaining_eq (h : a.IsTimely) (hdue : a.nextTime = some time) :
    ∃ turn, a.remaining = turn ++ a.afterTurn.remaining ∧ ∀ e ∈ turn, e.moment.time = time := by
  obtain ⟨turn, rest, hturns, -, htime⟩ := h.turns_eq hdue
  refine ⟨turn, ?_, htime⟩
  simp [remaining, Actor.afterTurn, hturns]

/-- Nothing is done before the next turn. -/
theorem IsTimely.le_of_mem_remaining (h : a.IsTimely) (hdue : a.nextTime = some time) :
    ∀ e ∈ a.remaining, time ≤ e.moment.time := by
  obtain ⟨turn, rest, hturns, hne, htime⟩ := h.turns_eq hdue
  obtain ⟨f, es, rfl⟩ := List.exists_cons_of_ne_nil hne
  have hsorted := h.sorted
  have hf : f.moment.time = time := htime f List.mem_cons_self
  rw [remaining, hturns, List.flatten_cons, List.cons_append] at hsorted ⊢
  rw [← hf]
  intro e he
  rcases List.mem_cons.mp he with rfl | he
  · exact Nat.le_refl _
  · exact (List.pairwise_cons.mp hsorted).1 e he

theorem remaining_ofLife (position : Nat) (life : Passage) :
    (ofLife position life).remaining = life.entries :=
  List.flatten_splitBy ..

theorem moment_eq_of_isChain {e : Entry}
    (h : (e :: es).IsChain fun e f => e.moment = f.moment) :
    ∀ f ∈ e :: es, f.moment = e.moment := by
  induction es generalizing e with
  | nil => simp
  | cons f es ih =>
    obtain ⟨hef, hrest⟩ := List.isChain_cons_cons.mp h
    intro g hg
    rcases List.mem_cons.mp hg with rfl | hg
    · rfl
    · rw [ih hrest g hg, hef]

/-- A worker takes its turns in time, if time does not go backwards in its life. -/
theorem isTimely_ofLife (position : Nat) {life : Passage}
    (h : life.entries.Pairwise fun e f => e.moment.time ≤ f.moment.time) :
    (ofLife position life).IsTimely where
  ne_nil turn ht := List.ne_nil_of_mem_splitBy ht
  instant turn ht e he f hf := by
    -- a turn consists of entries with one moment
    have hchain := (List.isChain_of_mem_splitBy ht).imp fun _ _ h => of_decide_eq_true h
    obtain ⟨g, es, rfl⟩ := List.exists_cons_of_ne_nil (List.ne_nil_of_mem_splitBy ht)
    rw [moment_eq_of_isChain hchain e he, moment_eq_of_isChain hchain f hf]
  sorted := by rwa [remaining_ofLife]

theorem worker_of_mem_acts {act : Act} (h : act ∈ a.acts) : act.worker = some a.position := by
  obtain ⟨e, -, rfl⟩ := List.mem_map.mp h
  rfl

/-- Everything that a worker does in a turn bears its position. -/
theorem filter_acts (a : Actor) (p : Nat) :
    (a.acts.filter fun act => act.worker = some p) = if a.position = p then a.acts else [] := by
  split
  · next h =>
    refine List.filter_eq_self.mpr fun act hact => ?_
    simp [worker_of_mem_acts hact, h]
  · next h =>
    refine List.filter_eq_nil_iff.mpr fun act hact => ?_
    simp [worker_of_mem_acts hact, h]

theorem filter_flatMap_acts_eq_nil {as : List Actor} (hp : p ∉ as.map position) :
    ((as.flatMap acts).filter fun act => act.worker = some p) = [] := by
  rw [List.filter_flatMap, List.flatMap_eq_nil_iff]
  intro a ha
  have hne : a.position ≠ p := fun h => hp (List.mem_map.mpr ⟨a, ha, h⟩)
  rw [filter_acts, if_neg hne]

theorem filter_flatMap_acts {as : List Actor} (hnodup : (as.map position).Nodup) (ha : a ∈ as) :
    ((as.flatMap acts).filter fun act => act.worker = some a.position) = a.acts := by
  induction as with
  | nil => simp at ha
  | cons b as ih =>
    rw [List.map_cons, List.nodup_cons] at hnodup
    rw [List.flatMap_cons, List.filter_append, filter_acts]
    rcases List.mem_cons.mp ha with rfl | ha
    · rw [if_pos rfl, filter_flatMap_acts_eq_nil hnodup.1, List.append_nil]
    · have hne : b.position ≠ a.position := fun h => hnodup.1 (List.mem_map.mpr ⟨a, ha, h.symm⟩)
      rw [if_neg hne, List.nil_append, ih hnodup.2 ha]

end Actor

end Steward.Supervision
