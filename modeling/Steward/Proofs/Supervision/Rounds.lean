import Mathlib.Data.List.Flatten
import Mathlib.Data.List.Nodup
import Steward.Proofs.Supervision.Turns

/-!
# Rounds keep every story

Workers that take turns are told round by round. A round begins the stories of those who are due,
and leaves the others alone (`Troupe.IsProper.storyOf_round`). `Plays` says by rules how rounds
follow one another while a condition on the time holds.

Results:
* `Troupe.IsProper.rounds_plays`: the rounds that are told follow these rules, and come to an end.
* `Plays.sorted`: rounds are in the order of time.
* `Plays.deedsOf_eq_filter`: what one worker does in the rounds is the part of its story in which
  the condition holds, whatever the others do.
* `Plays.isOver_iff`: all workers have ended behind the rounds exactly if each of them comes to its
  end while the condition holds.
* `storyOf_reversed`: the order in which workers wait makes no difference to what each of them does.
-/

namespace Steward.Supervision

variable {p time : Nat} {a b : Actor} {t t' : Troupe} {rs : List Round}

/-! ## The line-up -/

namespace Troupe

/-- One place in a line-up is filled by another number. -/
theorem map_replace_perm {l : List Nat} (hnodup : l.Nodup) (hp : p ∈ l) (last : Nat) :
    (p :: l.map fun q => if q = p then last else q).Perm (last :: l) := by
  induction l with
  | nil => simp at hp
  | cons q l ih =>
    rw [List.nodup_cons] at hnodup
    rw [List.map_cons]
    by_cases hq : q = p
    · have hsame : (l.map fun r => if r = p then last else r) = l := by
        refine (List.map_congr_left fun r hr => ?_).trans (List.map_id' l)
        refine if_neg fun h => hnodup.1 ?_
        rwa [hq, ← h]
      rw [hsame, if_pos hq, hq]
      exact List.Perm.swap ..
    · have hl : p ∈ l := by simpa [Ne.symm hq] using hp
      rw [if_neg hq]
      calc (p :: q :: l.map fun r => if r = p then last else r)
        _ |>.Perm (q :: p :: l.map fun r => if r = p then last else r) := List.Perm.swap ..
        _ |>.Perm (q :: last :: l) := (ih hnodup.2 hl).cons q
        _ |>.Perm (last :: q :: l) := List.Perm.swap ..

/-- Those in a line-up are the one that leaves it and those who stay. -/
theorem cons_leave_perm {l : List Nat} (hnodup : l.Nodup) (hp : p ∈ l) :
    (p :: leave l p).Perm l := by
  obtain ⟨init, last, rfl⟩ : ∃ init last, l = init ++ [last] :=
    ⟨_, _, (List.dropLast_append_getLast (List.ne_nil_of_mem hp)).symm⟩
  have hswap : (init ++ [last]).Perm (last :: init) := List.perm_append_singleton last init
  unfold leave
  rw [List.getLast?_concat, List.dropLast_concat]
  by_cases h : last = p
  · rw [if_pos (by rw [h]), ← h]
    exact hswap.symm
  · rw [if_neg (by simpa using h)]
    have hinit : p ∈ init := by simpa [Ne.symm h] using hp
    have hnodup : init.Nodup := (List.nodup_append.mp hnodup).1
    exact (map_replace_perm hnodup hinit last).trans hswap.symm

/-- Those in a line-up are the ones that leave it one after the other and those who stay. -/
theorem append_foldl_leave_perm {ps : List Nat} (hps : ps.Nodup) :
    ∀ {l : List Nat}, l.Nodup → (∀ p ∈ ps, p ∈ l) → (ps ++ ps.foldl leave l).Perm l := by
  induction ps with
  | nil => intro l _ _; exact List.Perm.refl l
  | cons p ps ih =>
    intro l hnodup hmem
    rw [List.nodup_cons] at hps
    have hleave := cons_leave_perm hnodup (hmem p List.mem_cons_self)
    have hstay : ∀ q ∈ ps, q ∈ leave l p := by
      intro q hq
      have hql : q ∈ p :: leave l p := hleave.mem_iff.mpr (hmem q (List.mem_cons_of_mem _ hq))
      rcases List.mem_cons.mp hql with rfl | hql
      · exact absurd hq hps.1
      · exact hql
    have hnodup' : (leave l p).Nodup := (List.nodup_cons.mp (hleave.nodup_iff.mpr hnodup)).2
    exact ((ih hps.2 hnodup' hstay).cons p).trans hleave

/-! ## Workers that take turns together -/

/-- The worker at a position, if it waits. -/
def at? (t : Troupe) (p : Nat) : Option Actor := t.waiting.find? fun a => a.position = p

/-- What the worker at a position still has to do. -/
def storyOf (t : Troupe) (p : Nat) : List (Nat × Deed) :=
  ((t.at? p).map fun a => story a.remaining).getD []

/-- The workers that are due at a time. -/
def due (t : Troupe) (time : Nat) : List Actor := t.waiting.filter fun a => a.isDue time

/-- Each worker takes its turns in time and has not ended, and there is one at most at each
    position; the line-up holds their positions. -/
structure IsProper (t : Troupe) : Prop where
  timely : ∀ a ∈ t.waiting, a.IsTimely
  unended : ∀ a ∈ t.waiting, a.hasEnded = false
  nodup : (t.waiting.map Actor.position).Nodup
  lineUp : t.lineUp.Perm (t.waiting.map Actor.position)

theorem IsProper.at?_eq_some_iff (h : t.IsProper) :
    t.at? p = some a ↔ a ∈ t.waiting ∧ a.position = p := by
  constructor
  · intro ha
    exact ⟨List.mem_of_find?_eq_some ha, by simpa using List.find?_some ha⟩
  · rintro ⟨ha, rfl⟩
    cases hfind : t.at? a.position with
    | none =>
      have hno := List.find?_eq_none.mp hfind a ha
      simp at hno
    | some b =>
      -- two workers at one position are the same
      have hb : b.position = a.position := by simpa using List.find?_some hfind
      have hmem : b ∈ t.waiting := List.mem_of_find?_eq_some hfind
      rw [List.inj_on_of_nodup_map h.nodup hmem ha hb]

theorem at?_eq_none_iff : t.at? p = none ↔ p ∉ t.waiting.map Actor.position := by
  simp [at?, List.find?_eq_none]

theorem storyOf_eq_nil (h : p ∉ t.waiting.map Actor.position) : t.storyOf p = [] := by
  rw [storyOf, at?_eq_none_iff.mpr h]
  rfl

theorem IsProper.storyOf_eq (h : t.IsProper) (ha : a ∈ t.waiting) :
    t.storyOf a.position = story a.remaining := by
  rw [storyOf, h.at?_eq_some_iff.mpr ⟨ha, rfl⟩]
  rfl

theorem mem_due : a ∈ t.due time ↔ a ∈ t.waiting ∧ a.nextTime = some time := by
  simp [due, Actor.isDue]

theorem mem_waiting_round : b ∈ (t.round time).2.waiting ↔
    (b ∈ t.waiting ∧ b.nextTime ≠ some time) ∨
      ((∃ a ∈ t.due time, a.afterTurn = b) ∧ b.hasEnded = false) := by
  simp [round, due, Actor.isDue]

/-- Those who wait are those who have ended with a round and those who wait behind it. -/
theorem ended_append_perm (t : Troupe) (time : Nat) :
    ((((t.due time).map Actor.afterTurn).filter Actor.hasEnded).map Actor.position ++
      (t.round time).2.waiting.map Actor.position).Perm (t.waiting.map Actor.position) := by
  have hdue : (((t.due time).map Actor.afterTurn).map Actor.position) =
      (t.due time).map Actor.position := by
    rw [List.map_map]
    rfl
  have hbehind := (List.filter_append_perm Actor.hasEnded
    ((t.due time).map Actor.afterTurn)).map Actor.position
  have hsplit := List.filter_append_perm (fun a : Actor => a.isDue time) t.waiting
  have hall := hsplit.map Actor.position
  rw [hdue, List.map_append] at hbehind
  rw [List.map_append] at hall
  have hwaiting : ((t.round time).2.waiting.map Actor.position).Perm
      ((((t.due time).map Actor.afterTurn).filter fun a => !a.hasEnded).map Actor.position ++
        (t.waiting.filter fun a => !a.isDue time).map Actor.position) := by
    rw [round, List.map_append]
    exact List.perm_append_comm
  refine (hwaiting.append_left _).trans ?_
  rw [← List.append_assoc]
  exact (hbehind.append_right _).trans hall

theorem IsProper.round (h : t.IsProper) (time : Nat) : (t.round time).2.IsProper where
  timely b hb := by
    rcases mem_waiting_round.mp hb with ⟨hb, -⟩ | ⟨⟨a, ha, rfl⟩, -⟩
    · exact h.timely b hb
    · exact (h.timely a (mem_due.mp ha).1).afterTurn
  unended b hb := by
    rcases mem_waiting_round.mp hb with ⟨hb, -⟩ | ⟨-, hb⟩
    · exact h.unended b hb
    · exact hb
  nodup := (List.nodup_append.mp ((ended_append_perm t time).nodup_iff.mpr h.nodup)).2.1
  lineUp := by
    have hperm := ended_append_perm t time
    have hnodup := hperm.nodup_iff.mpr h.nodup
    have hline := append_foldl_leave_perm (List.nodup_append.mp hnodup).1
      (h.lineUp.nodup_iff.mpr h.nodup) fun p hp =>
        h.lineUp.mem_iff.mpr (hperm.mem_iff.mp (List.mem_append_left _ hp))
    have hall := hline.trans (h.lineUp.trans hperm.symm)
    rw [List.perm_append_left_iff, List.foldl_map] at hall
    exact hall

theorem IsProper.eq_of_position (h : t.IsProper) (ha : a ∈ t.waiting) (hb : b ∈ t.waiting)
    (heq : a.position = b.position) : a = b :=
  List.inj_on_of_nodup_map h.nodup ha hb heq

theorem IsProper.nodup_due (h : t.IsProper) (time : Nat) :
    ((t.due time).map Actor.position).Nodup :=
  h.nodup.sublist ((List.filter_sublist (l := t.waiting)).map Actor.position)

theorem deedsOf_round (t : Troupe) (time p : Nat) : (t.round time).1.deedsOf p =
    (((t.due time).flatMap Actor.acts).filter fun act => act.worker = some p).map
      fun act => (time, act.deed) :=
  rfl

/-- A worker that is not due does nothing in a round. -/
theorem deedsOf_round_eq_nil (hno : p ∉ (t.due time).map Actor.position) :
    (t.round time).1.deedsOf p = [] := by
  rw [deedsOf_round, Actor.filter_flatMap_acts_eq_nil hno]
  rfl

theorem IsProper.position_mem_due_iff (h : t.IsProper) (ha : a ∈ t.waiting) :
    a.position ∈ (t.due time).map Actor.position ↔ a.nextTime = some time := by
  rw [List.mem_map]
  constructor
  · rintro ⟨b, hb, hpos⟩
    obtain ⟨hb, hnext⟩ := mem_due.mp hb
    exact h.eq_of_position hb ha hpos ▸ hnext
  · intro hnext
    exact ⟨a, mem_due.mpr ⟨ha, hnext⟩, rfl⟩

/-- A worker that has taken its last turn does not come back. -/
theorem IsProper.position_notMem_waiting_round (h : t.IsProper) (ha : a ∈ t.due time)
    (hended : a.afterTurn.hasEnded = true) :
    a.position ∉ (t.round time).2.waiting.map Actor.position := by
  obtain ⟨hwait, hdue⟩ := mem_due.mp ha
  rw [List.mem_map]
  rintro ⟨b, hb, hpos⟩
  rcases mem_waiting_round.mp hb with ⟨hb, hne⟩ | ⟨⟨c, hc, rfl⟩, hb⟩
  · exact hne (h.eq_of_position hb hwait hpos ▸ hdue)
  · rw [h.eq_of_position (mem_due.mp hc).1 hwait hpos, hended] at hb
    exact absurd hb (by simp)

/-- Behind a round a worker that was due has the rest of its story before it. -/
theorem IsProper.storyOf_afterTurn (h : t.IsProper) (ha : a ∈ t.due time) :
    (t.round time).2.storyOf a.position = story a.afterTurn.remaining := by
  by_cases hended : a.afterTurn.hasEnded = true
  · rw [storyOf_eq_nil (h.position_notMem_waiting_round ha hended)]
    have hturns : a.afterTurn.turns = [] := by
      simp only [Actor.hasEnded, Bool.and_eq_true, List.isEmpty_iff] at hended
      exact hended.1
    simp [Actor.remaining, hturns]
  · have hb : a.afterTurn ∈ (t.round time).2.waiting :=
      mem_waiting_round.mpr (.inr ⟨⟨a, ha, rfl⟩, eq_false_of_ne_true hended⟩)
    exact (h.round time).storyOf_eq hb

/-- What a worker does is told in a round or comes behind it. -/
theorem IsProper.storyOf_round (h : t.IsProper) (time p : Nat) :
    t.storyOf p = (t.round time).1.deedsOf p ++ (t.round time).2.storyOf p := by
  by_cases hp : p ∈ t.waiting.map Actor.position
  · obtain ⟨a, ha, rfl⟩ := List.mem_map.mp hp
    rw [h.storyOf_eq ha]
    by_cases hdue : a.nextTime = some time
    · have hmem : a ∈ t.due time := mem_due.mpr ⟨ha, hdue⟩
      rw [deedsOf_round, Actor.filter_flatMap_acts (h.nodup_due time) hmem,
        (h.timely a ha).story_remaining hdue, h.storyOf_afterTurn hmem]
    · -- it waits
      have hno : a.position ∉ (t.due time).map Actor.position :=
        fun hin => hdue ((h.position_mem_due_iff ha).mp hin)
      have hb : a ∈ (t.round time).2.waiting := mem_waiting_round.mpr (.inl ⟨ha, hdue⟩)
      rw [deedsOf_round_eq_nil hno, (h.round time).storyOf_eq hb]
      rfl
  · have hno : p ∉ (t.due time).map Actor.position := by
      rw [List.mem_map]
      rintro ⟨b, hb, hpos⟩
      exact hp (List.mem_map.mpr ⟨b, (mem_due.mp hb).1, hpos⟩)
    have hgone : p ∉ (t.round time).2.waiting.map Actor.position := fun hin =>
      hp ((ended_append_perm t time).mem_iff.mp (List.mem_append_right _ hin))
    rw [storyOf_eq_nil hp, deedsOf_round_eq_nil hno, storyOf_eq_nil hgone]
    rfl

/-! ## Rounds one after the other -/

theorem nextTime_eq_some_iff : t.nextTime = some time ↔
    (∃ a ∈ t.waiting, a.nextTime = some time) ∧
      ∀ a ∈ t.waiting, ∀ time', a.nextTime = some time' → time ≤ time' := by
  rw [nextTime, List.min?_eq_some_iff]
  simp only [List.mem_filterMap]
  constructor
  · rintro ⟨⟨a, ha, hnext⟩, hmin⟩
    exact ⟨⟨a, ha, hnext⟩, fun b hb time' hb' => hmin time' ⟨b, hb, hb'⟩⟩
  · rintro ⟨⟨a, ha, hnext⟩, hmin⟩
    exact ⟨⟨a, ha, hnext⟩, fun time' ⟨b, hb, hb'⟩ => hmin b hb time' hb'⟩

theorem nextTime_eq_none_iff : t.nextTime = none ↔ ∀ a ∈ t.waiting, a.nextTime = none := by
  rw [nextTime, List.min?_eq_none_iff, List.filterMap_eq_nil_iff]

theorem length_flatMap_afterTurn {as : List Actor} (h : ∀ a ∈ as, a.turns ≠ []) :
    ((as.map Actor.afterTurn).flatMap Actor.turns).length + as.length =
      (as.flatMap Actor.turns).length := by
  induction as with
  | nil => rfl
  | cons a as ih =>
    have ha : 0 < a.turns.length := List.length_pos_of_ne_nil (h a List.mem_cons_self)
    have ih := ih fun b hb => h b (List.mem_cons_of_mem _ hb)
    simp only [List.map_cons, List.flatMap_cons, List.length_append, List.length_cons,
      Actor.afterTurn, List.length_tail] at ih ⊢
    omega

/-- In each round a turn is taken at least. -/
theorem IsProper.size_round_lt (h : t.IsProper) (hnext : t.nextTime = some time) :
    (t.round time).2.size < t.size := by
  obtain ⟨⟨a, ha, hdue⟩, -⟩ := nextTime_eq_some_iff.mp hnext
  have hpos : 0 < (t.due time).length :=
    List.length_pos_of_ne_nil (List.ne_nil_of_mem (mem_due.mpr ⟨ha, hdue⟩))
  have hturns : ∀ b ∈ t.due time, b.turns ≠ [] := by
    intro b hb hnil
    obtain ⟨hb, hdue⟩ := mem_due.mp hb
    rw [(h.timely b hb).nextTime_eq_none_iff.mpr hnil] at hdue
    exact absurd hdue (by simp)
  have hbehind := length_flatMap_afterTurn hturns
  have hall := ((List.filter_append_perm (fun a : Actor => a.isDue time)
    t.waiting).flatMap_right Actor.turns).length_eq
  have hstay := ((List.filter_sublist (p := fun a : Actor => !a.hasEnded)
    (l := (t.due time).map Actor.afterTurn)).flatMap Actor.turns).length_le
  rw [List.flatMap_append, List.length_append] at hall
  rw [size, size, Troupe.round, List.flatMap_append, List.length_append]
  unfold due at hpos hbehind hstay
  omega

/-- The rounds of some workers while a condition on the time holds, and the workers behind them. -/
inductive Plays (while? : Nat → Bool) : Troupe → List Round → Troupe → Prop
  /-- There is no further round. -/
  | done {t : Troupe} (h : ∀ time, t.nextTime = some time → while? time = false) :
      Plays while? t [] t
  /-- A round comes before the others. -/
  | next {t t' : Troupe} {time : Nat} {rs : List Round} (hnext : t.nextTime = some time)
      (hw : while? time = true) (hrest : Plays while? (t.round time).2 rs t') :
      Plays while? t ((t.round time).1 :: rs) t'

variable {while? : Nat → Bool}

/-- The rounds that are told follow these rules, if enough of them are. -/
theorem IsProper.rounds_plays {limit : Nat} (h : t.IsProper) (hlimit : t.size ≤ limit) :
    Plays while? t (t.rounds while? limit).1 (t.rounds while? limit).2 := by
  induction limit generalizing t with
  | zero =>
    refine .done fun time hnext => ?_
    have hlt := h.size_round_lt hnext
    omega
  | succ limit ih =>
    rw [rounds]
    split
    · next time hnext =>
      have hlt := h.size_round_lt hnext
      split
      · next hw => exact .next hnext hw (ih (h.round time) (by omega))
      · next hw =>
        refine .done fun time' hnext' => ?_
        rw [hnext, Option.some.injEq] at hnext'
        rw [← hnext']
        exact eq_false_of_ne_true hw
    · next hnone => exact .done fun time hnext => absurd (hnone.symm.trans hnext) (by simp)

theorem Plays.isProper (h : Plays while? t rs t') (ht : t.IsProper) : t'.IsProper := by
  induction h with
  | done => exact ht
  | next hnext hw hrest ih => exact ih (ht.round _)

/-- What each worker does is told in the rounds or comes behind them. -/
theorem Plays.storyOf_eq (h : Plays while? t rs t') (ht : t.IsProper) (p : Nat) :
    t.storyOf p = deedsOf p rs ++ t'.storyOf p := by
  induction h with
  | done => rfl
  | next hnext hw hrest ih =>
    rw [ht.storyOf_round, ih (ht.round _), deedsOf_cons, List.append_assoc]

theorem Plays.while_of_mem (h : Plays while? t rs t') : ∀ r ∈ rs, while? r.time = true := by
  induction h with
  | done => simp
  | next hnext hw hrest ih =>
    intro r hr
    rcases List.mem_cons.mp hr with rfl | hr
    · exact hw
    · exact ih r hr

/-- No worker is due before a time. -/
def IsBehind (t : Troupe) (time : Nat) : Prop :=
  ∀ a ∈ t.waiting, ∀ e ∈ a.remaining, time ≤ e.moment.time

theorem IsProper.isBehind (h : t.IsProper) (hnext : t.nextTime = some time) : t.IsBehind time := by
  obtain ⟨-, hmin⟩ := nextTime_eq_some_iff.mp hnext
  intro a ha e he
  cases hdue : a.nextTime with
  | none =>
    have hnil := (h.timely a ha).nextTime_eq_none_iff.mp hdue
    simp [Actor.remaining, hnil] at he
  | some time' =>
    have hle := (h.timely a ha).le_of_mem_remaining hdue e he
    have hmin := hmin a ha time' hdue
    omega

theorem IsBehind.round (h : t.IsBehind p) (time : Nat) : (t.round time).2.IsBehind p := by
  intro b hb e he
  rcases mem_waiting_round.mp hb with ⟨hb, -⟩ | ⟨⟨a, ha, rfl⟩, -⟩
  · exact h b hb e he
  · obtain ⟨turn, hturn, he⟩ := List.mem_flatten.mp he
    exact h a (mem_due.mp ha).1 e (List.mem_flatten.mpr ⟨turn, List.mem_of_mem_tail hturn, he⟩)

theorem IsProper.le_nextTime (h : t.IsProper) (hbehind : t.IsBehind p)
    (hnext : t.nextTime = some time) : p ≤ time := by
  obtain ⟨⟨a, ha, hdue⟩, -⟩ := nextTime_eq_some_iff.mp hnext
  obtain ⟨turn, rest, hturns, hne, htime⟩ := (h.timely a ha).turns_eq hdue
  obtain ⟨e, he⟩ := List.exists_mem_of_ne_nil turn hne
  rw [← htime e he]
  exact hbehind a ha e (by simp [Actor.remaining, hturns, he])

theorem Plays.le_of_mem (h : Plays while? t rs t') (ht : t.IsProper) (hbehind : t.IsBehind p) :
    ∀ r ∈ rs, p ≤ r.time := by
  induction h with
  | done => simp
  | next hnext hw hrest ih =>
    intro r hr
    rcases List.mem_cons.mp hr with rfl | hr
    · exact ht.le_nextTime hbehind hnext
    · exact ih (ht.round _) (hbehind.round _) r hr

/-- The rounds are in the order of time. -/
theorem Plays.sorted (h : Plays while? t rs t') (ht : t.IsProper) :
    rs.Pairwise fun r q => r.time ≤ q.time := by
  induction h with
  | done => exact List.Pairwise.nil
  | next hnext hw hrest ih =>
    refine List.pairwise_cons.mpr ⟨fun q hq => ?_, ih (ht.round _)⟩
    exact hrest.le_of_mem (ht.round _) ((ht.isBehind hnext).round _) q hq

/-- In each round something is done by a worker. -/
theorem Plays.exists_deed (h : Plays while? t rs t') (ht : t.IsProper) :
    ∀ r ∈ rs, ∃ p d, (⟨some p, d⟩ : Act) ∈ r.acts := by
  induction h with
  | done => simp
  | @next t t' time rs hnext hw hrest ih =>
    intro r hr
    rcases List.mem_cons.mp hr with rfl | hr
    · obtain ⟨⟨a, ha, hdue⟩, -⟩ := nextTime_eq_some_iff.mp hnext
      obtain ⟨turn, rest, hturns, hne, -⟩ := (ht.timely a ha).turns_eq hdue
      obtain ⟨e, he⟩ := List.exists_mem_of_ne_nil turn hne
      refine ⟨a.position, e.deed, List.mem_flatMap.mpr ⟨a, mem_due.mpr ⟨ha, hdue⟩, ?_⟩⟩
      exact List.mem_map.mpr ⟨e, by simpa [hturns] using he, rfl⟩
    · exact ih (ht.round _) r hr

/-- All that is done is done by the workers. -/
theorem Plays.exists_worker (h : Plays while? t rs t') :
    ∀ r ∈ rs, ∀ act ∈ r.acts, ∃ a ∈ t.waiting, act.worker = some a.position := by
  induction h with
  | done => simp
  | @next t t' time rs hnext hw hrest ih =>
    intro r hr act hact
    rcases List.mem_cons.mp hr with rfl | hr
    · obtain ⟨a, ha, hact⟩ := List.mem_flatMap.mp hact
      exact ⟨a, (mem_due.mp ha).1, Actor.worker_of_mem_acts hact⟩
    · obtain ⟨b, hb, hwork⟩ := ih r hr act hact
      rcases mem_waiting_round.mp hb with ⟨hb, -⟩ | ⟨⟨a, ha, rfl⟩, -⟩
      · exact ⟨b, hb, hwork⟩
      · exact ⟨a, (mem_due.mp ha).1, hwork⟩

/-! ## What is told while a condition holds -/

/-- A condition that fails from some time on, if it fails at all. -/
def IsLapsing (while? : Nat → Bool) : Prop :=
  ∀ time time', time ≤ time' → while? time' = true → while? time = true

/-- What is left over does not fulfil the condition. -/
theorem Plays.while_eq_false (h : Plays while? t rs t') (ht : t.IsProper) (hw : IsLapsing while?) :
    ∀ a ∈ t'.waiting, ∀ e ∈ a.remaining, while? e.moment.time = false := by
  induction h with
  | next hnext _ hrest ih => exact ih (ht.round _)
  | @done t h =>
    intro a ha e he
    cases hnext : t.nextTime with
    | none =>
      have hnil := (ht.timely a ha).nextTime_eq_none_iff.mp (nextTime_eq_none_iff.mp hnext a ha)
      simp [Actor.remaining, hnil] at he
    | some time =>
      have hle := ht.isBehind hnext a ha e he
      refine eq_false_of_ne_true fun htrue => ?_
      have hfalse := h time hnext
      rw [hw time _ hle htrue] at hfalse
      exact absurd hfalse (by simp)

theorem mem_storyOf {x : Nat × Deed} (h : x ∈ t.storyOf p) :
    ∃ a ∈ t.waiting, ∃ e ∈ a.remaining, (e.moment.time, e.deed) = x := by
  unfold storyOf at h
  cases hfind : t.at? p with
  | none => simp [hfind] at h
  | some a =>
    rw [hfind] at h
    obtain ⟨e, he, hx⟩ := List.mem_map.mp h
    exact ⟨a, List.mem_of_find?_eq_some hfind, e, he, hx⟩

/-- What a worker does in these rounds is the part of its story in which the condition holds, and
    what is left over is the other part. -/
theorem Plays.deedsOf_eq_filter (h : Plays while? t rs t') (ht : t.IsProper)
    (hw : IsLapsing while?) (p : Nat) :
    deedsOf p rs = (t.storyOf p).filter (fun x => while? x.1) ∧
      t'.storyOf p = (t.storyOf p).filter fun x => !while? x.1 := by
  have htold : ∀ x ∈ deedsOf p rs, while? x.1 = true := by
    intro x hx
    obtain ⟨r, hr, -, htime⟩ := mem_deedsOf.mp hx
    rw [← htime]
    exact h.while_of_mem r hr
  have hrest : ∀ x ∈ t'.storyOf p, while? x.1 = false := by
    intro x hx
    obtain ⟨a, ha, e, he, rfl⟩ := mem_storyOf hx
    exact h.while_eq_false ht hw a ha e he
  rw [h.storyOf_eq ht p, List.filter_append, List.filter_append]
  constructor
  · rw [List.filter_eq_self.mpr htold, List.filter_eq_nil_iff.mpr fun x hx => by simp [hrest x hx],
      List.append_nil]
  · rw [List.filter_eq_nil_iff.mpr fun x hx => by simp [htold x hx], List.nil_append,
      List.filter_eq_self.mpr fun x hx => by simp [hrest x hx]]

/-- A worker comes to its end, and all that it still has to do is done at times that fulfil a
    condition. -/
def EndsWhile (P : Nat → Prop) (a : Actor) : Prop :=
  a.ends = true ∧ ∀ e ∈ a.remaining, P e.moment.time

/-- A round at a time at which a condition holds does not change whether all workers come to their
    ends while it does. -/
theorem IsProper.forall_endsWhile_round_iff {P : Nat → Prop} (h : t.IsProper) (hP : P time) :
    (∀ b ∈ (t.round time).2.waiting, EndsWhile P b) ↔ ∀ a ∈ t.waiting, EndsWhile P a := by
  constructor
  · intro hall a ha
    by_cases hdue : a.nextTime = some time
    · obtain ⟨turn, heq, htime⟩ := (h.timely a ha).remaining_eq hdue
      have hturn : ∀ e ∈ turn, P e.moment.time := by
        intro e he
        rw [htime e he]
        exact hP
      by_cases hended : a.afterTurn.hasEnded = true
      · simp only [Actor.hasEnded, Bool.and_eq_true, List.isEmpty_iff] at hended
        refine ⟨hended.2, ?_⟩
        rw [heq]
        simpa [Actor.remaining, hended.1] using hturn
      · obtain ⟨hends, hrest⟩ := hall a.afterTurn (mem_waiting_round.mpr
          (.inr ⟨⟨a, mem_due.mpr ⟨ha, hdue⟩, rfl⟩, eq_false_of_ne_true hended⟩))
        refine ⟨hends, ?_⟩
        rw [heq]
        exact List.forall_mem_append.mpr ⟨hturn, hrest⟩
    · exact hall a (mem_waiting_round.mpr (.inl ⟨ha, hdue⟩))
  · intro hall b hb
    rcases mem_waiting_round.mp hb with ⟨hb, -⟩ | ⟨⟨a, ha, rfl⟩, -⟩
    · exact hall b hb
    · obtain ⟨ha, hdue⟩ := mem_due.mp ha
      obtain ⟨turn, heq, -⟩ := (h.timely a ha).remaining_eq hdue
      obtain ⟨hends, htrue⟩ := hall a ha
      rw [heq] at htrue
      exact ⟨hends, (List.forall_mem_append.mp htrue).2⟩

/-- Rounds do not change which workers come to their ends while a condition holds that is true in
    all of them. -/
theorem Plays.forall_endsWhile_iff {P : Nat → Prop} (h : Plays while? t rs t') (ht : t.IsProper)
    (hP : ∀ time, while? time = true → P time) :
    (∀ b ∈ t'.waiting, EndsWhile P b) ↔ ∀ a ∈ t.waiting, EndsWhile P a := by
  induction h with
  | done => exact Iff.rfl
  | @next t t' time rs hnext hw hrest ih =>
    rw [ih (ht.round time), ht.forall_endsWhile_round_iff (hP time hw)]

/-- All workers have ended behind these rounds exactly if each of them comes to its end while the
    condition holds. -/
theorem Plays.isOver_iff (h : Plays while? t rs t') (ht : t.IsProper) (hw : IsLapsing while?) :
    t'.isOver = true ↔ ∀ a ∈ t.waiting, EndsWhile (fun time => while? time = true) a := by
  rw [← h.forall_endsWhile_iff ht fun _ hP => hP, isOver, List.isEmpty_iff]
  constructor
  · intro hnil
    simp [hnil]
  · intro hall
    refine List.eq_nil_iff_forall_not_mem.mpr fun a ha => ?_
    obtain ⟨hends, htrue⟩ := hall a ha
    have hturns : a.turns ≠ [] := by
      intro hnil
      have hno := (h.isProper ht).unended a ha
      simp [Actor.hasEnded, hnil, hends] at hno
    -- the worker has another turn, and the condition holds and fails at its time
    obtain ⟨turn, rest, heq⟩ := List.exists_cons_of_ne_nil hturns
    have hne : turn ≠ [] := ((h.isProper ht).timely a ha).ne_nil turn (by simp [heq])
    obtain ⟨e, he⟩ := List.exists_mem_of_ne_nil turn hne
    have hmem : e ∈ a.remaining := by simp [Actor.remaining, heq, he]
    have hfalse := h.while_eq_false ht hw a ha e hmem
    rw [htrue e hmem] at hfalse
    exact absurd hfalse (by simp)

/-! ## Workers at the beginning, and in the order of their line-up -/

theorem map_position_ofLives (lives : List Passage) :
    (ofLives lives).waiting.map Actor.position = List.range lives.length := by
  rw [ofLives, List.map_map]
  exact (List.zipIdx_map_snd 0 lives).trans (List.range_eq_range' (n := lives.length)).symm

theorem mem_waiting_ofLives {lives : List Passage} :
    a ∈ (ofLives lives).waiting ↔
      ∃ i life, lives[i]? = some life ∧ Actor.ofLife i life = a := by
  simp only [ofLives, List.mem_map, Prod.exists, List.mem_zipIdx_iff_getElem?]
  constructor
  · rintro ⟨life, i, h, ha⟩
    exact ⟨i, life, h, ha⟩
  · rintro ⟨i, life, h, ha⟩
    exact ⟨life, i, h, ha⟩

/-- Workers at the beginning of their lives take their turns in time, if time does not go backwards
    in their lives and each of them does something. -/
theorem isProper_ofLives {lives : List Passage} (hne : ∀ life ∈ lives, life.entries ≠ [])
    (hsorted : ∀ life ∈ lives,
      life.entries.Pairwise fun e f => e.moment.time ≤ f.moment.time) :
    (ofLives lives).IsProper where
  timely a ha := by
    obtain ⟨i, life, hlife, rfl⟩ := mem_waiting_ofLives.mp ha
    exact Actor.isTimely_ofLife i (hsorted life (List.mem_of_getElem? hlife))
  unended a ha := by
    obtain ⟨i, life, hlife, rfl⟩ := mem_waiting_ofLives.mp ha
    have hturns : (Actor.ofLife i life).turns ≠ [] :=
      List.splitBy_ne_nil.mpr (hne life (List.mem_of_getElem? hlife))
    simp [Actor.hasEnded, hturns]
  nodup := by
    rw [map_position_ofLives]
    exact List.nodup_range
  lineUp := by
    rw [map_position_ofLives]
    exact List.Perm.refl _

theorem storyOf_ofLives {lives : List Passage} (h : (ofLives lives).IsProper) (i : Nat) :
    (ofLives lives).storyOf i = (lives[i]?.map fun life => story life.entries).getD [] := by
  cases hlife : lives[i]? with
  | some life =>
    have hmem := mem_waiting_ofLives.mpr ⟨i, life, hlife, rfl⟩
    rw [Option.map_some, Option.getD_some, ← Actor.remaining_ofLife i life]
    exact h.storyOf_eq hmem
  | none =>
    refine storyOf_eq_nil ?_
    rw [map_position_ofLives, List.mem_range, Nat.not_lt]
    exact List.getElem?_eq_none_iff.mp hlife

theorem map_position_reversed (h : t.IsProper) :
    t.reversed.waiting.map Actor.position = t.lineUp.reverse := by
  have hfind : ∀ {ps : List Nat}, (∀ p ∈ ps, p ∈ t.lineUp) →
      (ps.filterMap t.at?).map Actor.position = ps := by
    intro ps hps
    induction ps with
    | nil => rfl
    | cons p ps ih =>
      obtain ⟨a, ha, hpos⟩ := List.mem_map.mp (h.lineUp.mem_iff.mp (hps p List.mem_cons_self))
      rw [List.filterMap_cons, h.at?_eq_some_iff.mpr ⟨ha, hpos⟩, List.map_cons, hpos,
        ih fun q hq => hps q (List.mem_cons_of_mem _ hq)]
  exact hfind fun p hp => List.mem_reverse.mp hp

theorem mem_waiting_reversed (h : t.IsProper) : a ∈ t.reversed.waiting ↔ a ∈ t.waiting := by
  have hmem : a ∈ t.reversed.waiting ↔ ∃ p ∈ t.lineUp.reverse, t.at? p = some a :=
    List.mem_filterMap
  rw [hmem]
  constructor
  · rintro ⟨p, -, ha⟩
    exact (h.at?_eq_some_iff.mp ha).1
  · intro ha
    refine ⟨a.position, List.mem_reverse.mpr ?_, h.at?_eq_some_iff.mpr ⟨ha, rfl⟩⟩
    exact h.lineUp.mem_iff.mpr (List.mem_map_of_mem ha)

theorem IsProper.reversed (h : t.IsProper) : t.reversed.IsProper where
  timely a ha := h.timely a ((mem_waiting_reversed h).mp ha)
  unended a ha := h.unended a ((mem_waiting_reversed h).mp ha)
  nodup := by
    rw [map_position_reversed h]
    exact (List.reverse_perm _).nodup_iff.mpr (h.lineUp.nodup_iff.mpr h.nodup)
  lineUp := by
    rw [map_position_reversed h]
    exact (List.reverse_perm _).symm

theorem size_reversed (h : t.IsProper) : t.reversed.size = t.size := by
  have hperm : t.reversed.waiting.Perm t.waiting :=
    (List.perm_ext_iff_of_nodup h.reversed.nodup.of_map h.nodup.of_map).mpr fun _ =>
      mem_waiting_reversed h
  exact (hperm.flatMap_right Actor.turns).length_eq

/-- The order in which workers wait makes no difference to what each of them does. -/
theorem storyOf_reversed (h : t.IsProper) (p : Nat) : t.reversed.storyOf p = t.storyOf p := by
  have hat : t.reversed.at? p = t.at? p := by
    refine Option.ext fun a => ?_
    rw [h.reversed.at?_eq_some_iff, h.at?_eq_some_iff, mem_waiting_reversed h]
  rw [storyOf, storyOf, hat]

end Troupe

end Steward.Supervision
