import Steward.Proofs.Supervision.Rounds
import Steward.Supervision.Supervisor

/-!
# What a course tells

A course follows one of three rules, `Unfolds`: all workers have ended before they are asked to
stop, or it is not told until then, or they are asked to stop and go on. What each worker does in
the course is what it does in its life, as far as the course is told.

Results:
* `Course.ofWorkers_unfolds`: each course follows the rules.
* `Unfolds.deedsOf_rounds`: what one worker does in a course.
* `Unfolds.deedsOf_before`, `Unfolds.deedsOf_after`: what it does before and after all are asked to
  stop.
* `Unfolds.finish_isSome_iff`: all workers have ended exactly if their lives have an end in the time
  that is told.
* `Unfolds.stop_eq_some_iff`: the workers are asked to stop exactly if one of them has something to
  do at that time or later, or if it is the very beginning.
-/

namespace Steward.Supervision

open Troupe

variable {lives : List Passage} {s : Surroundings} {told stop : Nat} {c : Course} {t : Troupe}
  {i : Nat} {life : Passage} {rs : List Round}

/-! ## How long lives are told -/

theorem le_foldl_min_iff {xs : List Nat} {a b : Nat} :
    a ≤ xs.foldl min b ↔ a ≤ b ∧ ∀ x ∈ xs, a ≤ x := by
  induction xs generalizing b with
  | nil => simp
  | cons x xs ih =>
    rw [List.foldl_cons, ih, Nat.le_min]
    simp [and_assoc]

/-- A course is told up to its horizon, but not for longer than any of the lives. -/
theorem Course.le_toldUntil_iff {time horizon : Nat} :
    time ≤ Course.toldUntil horizon lives ↔
      time ≤ horizon ∧ ∀ life ∈ lives, ∀ until' ∈ life.ending.told?, time ≤ until' := by
  rw [Course.toldUntil, le_foldl_min_iff]
  simp only [List.mem_filterMap, Option.mem_def, forall_exists_index, and_imp]
  constructor
  · rintro ⟨h, hall⟩
    exact ⟨h, fun life hlife until' htold => hall until' life hlife htold⟩
  · rintro ⟨h, hall⟩
    exact ⟨h, fun until' life hlife htold => hall life hlife until' htold⟩

/-! ## The last round -/

theorem Course.le_lastTime (start : Nat) (h : rs.Pairwise fun r q => r.time ≤ q.time) :
    ∀ r ∈ rs, r.time ≤ Course.lastTime start rs := by
  intro r hr
  obtain ⟨init, last, rfl⟩ : ∃ init last, rs = init ++ [last] :=
    ⟨_, _, (List.dropLast_append_getLast (List.ne_nil_of_mem hr)).symm⟩
  have hlast : Course.lastTime start (init ++ [last]) = last.time := by simp [Course.lastTime]
  rw [hlast]
  rcases List.mem_append.mp hr with hr | hr
  · exact (List.pairwise_append.mp h).2.2 r hr last List.mem_cons_self
  · rw [List.mem_singleton.mp hr]

theorem Course.lastTime_cases (start : Nat) (rs : List Round) :
    (rs = [] ∧ Course.lastTime start rs = start) ∨
      ∃ r ∈ rs, r.time = Course.lastTime start rs := by
  cases hlast : rs.getLast? with
  | none => exact .inl ⟨List.getLast?_eq_none_iff.mp hlast, by simp [Course.lastTime, hlast]⟩
  | some r => exact .inr ⟨r, List.mem_of_getLast? hlast, by simp [Course.lastTime, hlast]⟩

/-! ## The rules -/

/-- True as long as a course is told and the workers are not asked to stop. -/
def isBefore (s : Surroundings) (told time : Nat) : Bool := time ≤ told && !s.stopped time

theorem isBefore_iff {time : Nat} :
    isBefore s told time = true ↔ time ≤ told ∧ s.stopped time = false := by
  simp [isBefore]

theorem isLapsing_isBefore : IsLapsing (isBefore s told) := by
  intro time time' hle h
  rw [isBefore_iff, s.stopped_eq_false_iff] at h ⊢
  refine ⟨by omega, fun stop hstop => ?_⟩
  have := h.2 stop hstop
  omega

theorem isLapsing_le (told : Nat) : IsLapsing fun time => decide (time ≤ told) := by
  intro time time' hle h
  have h : time' ≤ told := of_decide_eq_true h
  exact decide_eq_true (by omega)

/-- How the course of workers with some lives goes that is told up to a time. -/
inductive Unfolds (lives : List Passage) (s : Surroundings) (told : Nat) : Course → Prop
  /-- All workers have ended before they are asked to stop. -/
  | ended {before : List Round} {left : Troupe}
      (hplays : Plays (isBefore s told) (ofLives lives) before left) (hover : left.isOver = true)
      (hstop : s.stopped 0 = false) :
      Unfolds lives s told { before, finish := some (Course.lastTime 0 before) }
  /-- Some workers go on, and are not asked to stop in the time that is told. -/
  | untold {before : List Round} {left : Troupe}
      (hplays : Plays (isBefore s told) (ofLives lives) before left) (hover : left.isOver = false)
      (hstop : ∀ stop, s.stop = some stop → told < stop) : Unfolds lives s told { before }
  /-- Some workers go on and are asked to stop, or it is the very beginning. -/
  | asked {before after : List Round} {left left' : Troupe} {stop : Nat}
      (hplays : Plays (isBefore s told) (ofLives lives) before left)
      (hover : left.isOver = true → stop = 0) (hstop : s.stop = some stop) (hle : stop ≤ told)
      (hplays' : Plays (fun time => decide (time ≤ told)) (Course.summoned left stop) after left') :
      Unfolds lives s told
        { before, stop := some stop, after
          finish := if left'.isOver then some (Course.lastTime stop after) else none }

theorem Troupe.IsProper.summoned (h : t.IsProper) (stop : Nat) :
    (Course.summoned t stop).IsProper := by
  unfold Course.summoned
  split
  · exact h
  · exact h.reversed

theorem Troupe.storyOf_summoned (h : t.IsProper) (stop i : Nat) :
    (Course.summoned t stop).storyOf i = t.storyOf i := by
  unfold Course.summoned
  split
  · rfl
  · exact storyOf_reversed h i

theorem Troupe.size_summoned (h : t.IsProper) (stop : Nat) :
    (Course.summoned t stop).size = t.size := by
  unfold Course.summoned
  split
  · rfl
  · exact size_reversed h

theorem Troupe.mem_waiting_summoned (h : t.IsProper) (stop : Nat) (a : Actor) :
    a ∈ (Course.summoned t stop).waiting ↔ a ∈ t.waiting := by
  unfold Course.summoned
  split
  · rfl
  · exact mem_waiting_reversed h

/-- Workers at the beginning of their lives take their turns in time. -/
theorem isProper_lives (ws : List Worker) (s : Surroundings) (horizon : Nat) :
    (ofLives (ws.map fun w => w.life s horizon)).IsProper := by
  refine isProper_ofLives ?_ ?_
  · intro life hlife
    obtain ⟨w, -, rfl⟩ := List.mem_map.mp hlife
    obtain ⟨connecting, work, h⟩ := life_phases w s horizon
    simp [h.entries]
  · intro life hlife
    obtain ⟨w, -, rfl⟩ := List.mem_map.mp hlife
    exact (life_isOrderly w s horizon).sorted

/-- Each course follows the rules. -/
theorem Course.ofWorkers_unfolds (ws : List Worker) (s : Surroundings) (horizon : Nat) :
    Unfolds (ws.map fun w => w.life s horizon) s
      (toldUntil horizon (ws.map fun w => w.life s horizon)) (ofWorkers ws s horizon) := by
  have hproper := isProper_lives ws s horizon
  generalize hlives : (ws.map fun w => w.life s horizon) = lives at hproper ⊢
  generalize htold : toldUntil horizon lives = told
  have hplays : Plays (isBefore s told) (ofLives lives)
      ((ofLives lives).rounds (isBefore s told) (ofLives lives).size).1
      ((ofLives lives).rounds (isBefore s told) (ofLives lives).size).2 :=
    hproper.rounds_plays (Nat.le_refl _)
  have hleft := hplays.isProper hproper
  have hcond : (fun time => decide (time ≤ told) && !s.stopped time) = isBefore s told := rfl
  generalize hrun : (ofLives lives).rounds (isBefore s told) (ofLives lives).size = run
    at hplays hleft
  unfold ofWorkers
  dsimp only
  rw [hlives, htold, hcond, hrun]
  obtain ⟨before, left⟩ := run
  split
  · next hover =>
    simp only [Bool.and_eq_true, Bool.not_eq_true'] at hover
    exact .ended hplays hover.1 hover.2
  · next hover =>
    split
    · next hnone =>
      -- the stop does not come in the time that is told
      have hstop : ∀ stop, s.stop = some stop → told < stop := by
        intro stop hs
        simpa [hs] using hnone
      have hzero : s.stopped 0 = false := by
        refine s.stopped_eq_false_iff.mpr fun stop hs => ?_
        have := hstop stop hs
        omega
      exact .untold hplays (by simpa [hzero] using hover) hstop
    · next stop hsome =>
      obtain ⟨hs, hle⟩ := Option.filter_eq_some_iff.mp hsome
      have hle : stop ≤ told := of_decide_eq_true hle
      have hsize := Nat.le_of_eq (size_summoned hleft stop)
      refine .asked hplays (fun hended => ?_) hs hle ((hleft.summoned stop).rounds_plays hsize)
      have hzero : s.stopped 0 = true := by simpa [hended] using hover
      obtain ⟨stop', hs', hle'⟩ := s.stopped_iff.mp hzero
      rw [hs, Option.some.injEq] at hs'
      omega

/-! ## What each worker does -/

/-- A life comes to its end, and all in it is done at times that fulfil a condition. -/
def Passage.EndsWhile (P : Nat → Prop) (life : Passage) : Prop :=
  life.ending.told? = none ∧ ∀ e ∈ life.entries, P e.moment.time

theorem Passage.EndsWhile.imp {P Q : Nat → Prop} (h : life.EndsWhile P)
    (hPQ : ∀ time, P time → Q time) : life.EndsWhile Q :=
  ⟨h.1, fun e he => hPQ _ (h.2 e he)⟩

theorem forall_endsWhile_ofLives_iff {P : Nat → Prop} :
    (∀ a ∈ (ofLives lives).waiting, Troupe.EndsWhile P a) ↔ ∀ life ∈ lives, life.EndsWhile P := by
  have hlife : ∀ i life, Troupe.EndsWhile P (Actor.ofLife i life) ↔ life.EndsWhile P := by
    intro i life
    rw [Troupe.EndsWhile, Actor.remaining_ofLife, Passage.EndsWhile, ← Option.isNone_iff_eq_none]
    rfl
  constructor
  · intro hall life hmem
    obtain ⟨i, hi⟩ := List.mem_iff_getElem?.mp hmem
    exact (hlife i life).mp (hall _ (mem_waiting_ofLives.mpr ⟨i, life, hi, rfl⟩))
  · intro hall a ha
    obtain ⟨i, life, hi, rfl⟩ := mem_waiting_ofLives.mp ha
    exact (hlife i life).mpr (hall life (List.mem_of_getElem? hi))

theorem pairwise_story (hproper : (ofLives lives).IsProper) (hlife : lives[i]? = some life) :
    (story life.entries).Pairwise fun x y => x.1 ≤ y.1 := by
  have hsorted := (hproper.timely _ (mem_waiting_ofLives.mpr ⟨i, life, hlife, rfl⟩)).sorted
  rw [Actor.remaining_ofLife] at hsorted
  exact List.pairwise_map.mpr hsorted

/-- What is done in the order of time comes apart into what is done while a condition holds and what
    is done afterwards. -/
theorem filter_append_filter_not {xs : List (Nat × Deed)} {while? : Nat → Bool}
    (hsorted : xs.Pairwise fun x y => x.1 ≤ y.1) (hw : IsLapsing while?) :
    xs.filter (fun x => while? x.1) ++ xs.filter (fun x => !while? x.1) = xs := by
  induction xs with
  | nil => rfl
  | cons x xs ih =>
    rw [List.pairwise_cons] at hsorted
    by_cases hx : while? x.1 = true
    · simp only [List.filter_cons, hx, if_true, Bool.not_true, Bool.false_eq_true, if_false,
        List.cons_append, ih hsorted.2]
    · have hrest : ∀ y ∈ x :: xs, while? y.1 = false := by
        intro y hy
        rcases List.mem_cons.mp hy with rfl | hy
        · exact eq_false_of_ne_true hx
        · exact eq_false_of_ne_true fun htrue => hx (hw _ _ (hsorted.1 y hy) htrue)
      rw [List.filter_eq_nil_iff.mpr fun y hy => by simp [hrest y hy], List.nil_append,
        List.filter_eq_self.mpr fun y hy => by simp [hrest y hy]]

theorem Unfolds.time_of_mem_before (h : Unfolds lives s told c) :
    ∀ r ∈ c.before, isBefore s told r.time = true := by
  cases h with
  | ended hplays | untold hplays | asked hplays => exact hplays.while_of_mem

section
variable (h : Unfolds lives s told c) (hproper : (ofLives lives).IsProper)
include h hproper

/-- What a worker does before all are asked to stop. -/
theorem Unfolds.deedsOf_before (hlife : lives[i]? = some life) :
    deedsOf i c.before = (story life.entries).filter fun x => isBefore s told x.1 := by
  have hstory : (ofLives lives).storyOf i = story life.entries := by
    rw [storyOf_ofLives hproper, hlife]
    rfl
  cases h with
  | ended hplays | untold hplays | asked hplays =>
    rw [(hplays.deedsOf_eq_filter hproper isLapsing_isBefore i).1, hstory]

/-- What a worker does after all were asked to stop. -/
theorem Unfolds.deedsOf_after (hlife : lives[i]? = some life) :
    deedsOf i c.after =
      (story life.entries).filter fun x => decide (x.1 ≤ told) && s.stopped x.1 := by
  have hstory : (ofLives lives).storyOf i = story life.entries := by
    rw [storyOf_ofLives hproper, hlife]
    rfl
  symm
  cases h with
  | ended hplays hover hstop =>
    -- nothing is left to do
    have hall := forall_endsWhile_ofLives_iff.mp
      ((hplays.isOver_iff hproper isLapsing_isBefore).mp hover)
    refine List.filter_eq_nil_iff.mpr fun x hx => ?_
    obtain ⟨e, he, rfl⟩ := List.mem_map.mp hx
    have hbefore := (hall life (List.mem_of_getElem? hlife)).2 e he
    simp [(isBefore_iff.mp hbefore).2]
  | untold hplays hover hstop =>
    refine List.filter_eq_nil_iff.mpr fun x hx => ?_
    simp only [Bool.and_eq_true, decide_eq_true_eq, s.stopped_iff, not_and, not_exists]
    intro hle stop hs
    have := hstop stop hs
    omega
  | @asked before after left left' stop hplays hover hstop hle hplays' =>
    have hleft := hplays.isProper hproper
    rw [(hplays'.deedsOf_eq_filter (hleft.summoned stop) (isLapsing_le told) i).1,
      storyOf_summoned hleft, (hplays.deedsOf_eq_filter hproper isLapsing_isBefore i).2, hstory,
      List.filter_filter]
    refine List.filter_congr fun x hx => ?_
    by_cases hx : x.1 ≤ told <;> simp [isBefore, hx]

/-- What a worker does in a course is what it does in its life, as far as that is told. -/
theorem Unfolds.deedsOf_rounds (hlife : lives[i]? = some life) :
    deedsOf i c.rounds = (story life.entries).filter fun x => decide (x.1 ≤ told) := by
  have hopening : deedsOf i c.opening = [] := by
    unfold Course.opening
    cases c.stop <;> rfl
  have hclosing : deedsOf i c.closing = [] := by
    unfold Course.closing
    cases c.stop <;> cases c.finish <;> rfl
  rw [Course.rounds, deedsOf_append, deedsOf_append, deedsOf_append, hopening, hclosing,
    h.deedsOf_before hproper hlife, h.deedsOf_after hproper hlife, List.append_nil, List.append_nil]
  -- what is told comes apart into what is done before and after the stop
  have hsorted := (pairwise_story hproper hlife).filter fun x => decide (x.1 ≤ told)
  have hlapsing : IsLapsing fun time => !s.stopped time := by
    intro time time' hle hno
    simp only [Bool.not_eq_true', s.stopped_eq_false_iff] at hno ⊢
    intro stop hs
    have := hno stop hs
    omega
  have hsplit := filter_append_filter_not hsorted hlapsing
  rw [List.filter_filter, List.filter_filter] at hsplit
  rw [← hsplit]
  congr 1 <;> refine List.filter_congr fun x _ => ?_
  · rw [isBefore, Bool.and_comm]
  · rw [Bool.not_not, Bool.and_comm]

/-- All that is done before and after the stop is done by the workers, and part of their lives. -/
theorem Unfolds.exists_entry {r : Round} {act : Act} (hr : r ∈ c.before ++ c.after)
    (hact : act ∈ r.acts) :
    ∃ i life, lives[i]? = some life ∧ act.worker = some i ∧
      ∃ e ∈ life.entries, e.moment.time = r.time ∧ e.deed = act.deed := by
  -- it belongs to the story of a worker
  obtain ⟨i, hwork, hstory⟩ : ∃ i, act.worker = some i ∧
      (r.time, act.deed) ∈ (ofLives lives).storyOf i := by
    have hdeeds : ∀ {rs : List Round} {i : Nat}, r ∈ rs → act.worker = some i →
        (r.time, act.deed) ∈ deedsOf i rs :=
      fun hr hwork => mem_deedsOf.mpr ⟨r, hr, by rw [← hwork]; exact hact, rfl⟩
    have hbefore : ∀ {before : List Round} {left : Troupe},
        Plays (isBefore s told) (ofLives lives) before left → r ∈ before →
        ∃ i, act.worker = some i ∧ (r.time, act.deed) ∈ (ofLives lives).storyOf i := by
      intro before left hplays hr
      obtain ⟨a, -, hwork⟩ := hplays.exists_worker r hr act hact
      refine ⟨a.position, hwork, ?_⟩
      rw [hplays.storyOf_eq hproper]
      exact List.mem_append_left _ (hdeeds hr hwork)
    cases h with
    | ended hplays | untold hplays => exact hbefore hplays (by simpa using hr)
    | asked hplays hover hstop hle hplays' =>
      rcases List.mem_append.mp hr with hr | hr
      · exact hbefore hplays hr
      · have hleft := hplays.isProper hproper
        obtain ⟨a, -, hwork⟩ := hplays'.exists_worker r hr act hact
        refine ⟨a.position, hwork, ?_⟩
        rw [hplays.storyOf_eq hproper, ← storyOf_summoned hleft,
          hplays'.storyOf_eq (hleft.summoned _)]
        exact List.mem_append_right _ (List.mem_append_left _ (hdeeds hr hwork))
  rw [storyOf_ofLives hproper] at hstory
  cases hlife : lives[i]? with
  | none => simp [hlife] at hstory
  | some life =>
    rw [hlife] at hstory
    obtain ⟨e, he, heq⟩ := List.mem_map.mp hstory
    rw [Prod.mk.injEq] at heq
    exact ⟨i, life, hlife, hwork, e, he, heq⟩

theorem Unfolds.sorted_after : c.after.Pairwise fun r q => r.time ≤ q.time := by
  cases h with
  | ended | untold => exact List.Pairwise.nil
  | asked hplays hover hstop hle hplays' =>
    exact hplays'.sorted ((hplays.isProper hproper).summoned _)

theorem Unfolds.sorted_before : c.before.Pairwise fun r q => r.time ≤ q.time := by
  cases h with
  | ended hplays | untold hplays | asked hplays => exact hplays.sorted hproper

/-- In each round a worker does something. -/
theorem Unfolds.exists_act : ∀ r ∈ c.before ++ c.after, ∃ act, act ∈ r.acts := by
  have hact : ∀ {while? : Nat → Bool} {t t' : Troupe} {rs : List Round}, t.IsProper →
      Plays while? t rs t' → ∀ r ∈ rs, ∃ act, act ∈ r.acts := by
    intro while? t t' rs ht hplays r hr
    obtain ⟨p, d, hmem⟩ := hplays.exists_deed ht r hr
    exact ⟨_, hmem⟩
  cases h with
  | ended hplays | untold hplays => simpa using hact hproper hplays
  | asked hplays hover hstop hle hplays' =>
    exact List.forall_mem_append.mpr
      ⟨hact hproper hplays, hact ((hplays.isProper hproper).summoned _) hplays'⟩

theorem Unfolds.time_of_mem_after : ∀ r ∈ c.after, r.time ≤ told ∧ s.stopped r.time = true := by
  intro r hr
  have hmem : r ∈ c.before ++ c.after := List.mem_append_right _ hr
  obtain ⟨act, hact⟩ := h.exists_act hproper r hmem
  obtain ⟨i, life, hlife, hwork, -⟩ := h.exists_entry hproper hmem hact
  have hdeeds : (r.time, act.deed) ∈ deedsOf i c.after :=
    mem_deedsOf.mpr ⟨r, hr, by rw [← hwork]; exact hact, rfl⟩
  rw [h.deedsOf_after hproper hlife] at hdeeds
  simpa using (List.mem_filter.mp hdeeds).2

/-! ## How a course ends -/

/-- All workers have ended exactly if their lives have an end in the time that is told. -/
theorem Unfolds.finish_isSome_iff :
    c.finish.isSome = true ↔ ∀ life ∈ lives, life.EndsWhile fun time => time ≤ told := by
  have hle : ∀ time, isBefore s told time = true → time ≤ told := fun _ h => (isBefore_iff.mp h).1
  cases h with
  | ended hplays hover hstop =>
    have hall := forall_endsWhile_ofLives_iff.mp
      ((hplays.isOver_iff hproper isLapsing_isBefore).mp hover)
    exact iff_of_true rfl fun life hlife => (hall life hlife).imp hle
  | untold hplays hover hstop =>
    refine iff_of_false (by simp) fun hall => ?_
    have hbefore : ∀ time, time ≤ told → isBefore s told time = true := by
      intro time hle
      refine isBefore_iff.mpr ⟨hle, s.stopped_eq_false_iff.mpr fun stop hs => ?_⟩
      have := hstop stop hs
      omega
    have hover' := (hplays.isOver_iff hproper isLapsing_isBefore).mpr
      (forall_endsWhile_ofLives_iff.mpr fun life hlife => (hall life hlife).imp hbefore)
    rw [hover] at hover'
    exact absurd hover' (by simp)
  | @asked before after left left' stop hplays hover hstop hstople hplays' =>
    have hleft := hplays.isProper hproper
    have hdecide : ∀ time, decide (time ≤ told) = true ↔ time ≤ told := fun _ => decide_eq_true_iff
    have hfinish :
        (if left'.isOver then some (Course.lastTime stop after) else none).isSome = true ↔
          left'.isOver = true := by
      split <;> simp_all
    rw [hfinish, hplays'.isOver_iff (hleft.summoned stop) (isLapsing_le told),
      ← forall_endsWhile_ofLives_iff, ← hplays.forall_endsWhile_iff hproper hle]
    simp only [hdecide, mem_waiting_summoned hleft]

/-- The workers are asked to stop in the very beginning, or if one of them has something to do at
    that time or later. -/
theorem Unfolds.stop_eq_some_iff :
    c.stop = some stop ↔ s.stop = some stop ∧ stop ≤ told ∧
      (stop = 0 ∨ ∃ life ∈ lives, ¬life.EndsWhile fun time => time < stop) := by
  cases h with
  | ended hplays hover hstop =>
    refine iff_of_false (by simp) ?_
    rintro ⟨hs, hle, rfl | ⟨life, hlife, hno⟩⟩
    · have := s.stopped_eq_false_iff.mp hstop 0 hs
      omega
    · have hall := forall_endsWhile_ofLives_iff.mp
        ((hplays.isOver_iff hproper isLapsing_isBefore).mp hover)
      refine hno ((hall life hlife).imp fun time hbefore => ?_)
      exact s.stopped_eq_false_iff.mp (isBefore_iff.mp hbefore).2 stop hs
  | untold hplays hover hstop =>
    refine iff_of_false (by simp) ?_
    rintro ⟨hs, hle, -⟩
    have := hstop stop hs
    omega
  | @asked before after left left' stop' hplays hover hstop hle hplays' =>
    rw [Option.some.injEq]
    constructor
    · rintro rfl
      refine ⟨hstop, hle, ?_⟩
      by_contra hno
      rw [not_or, not_exists] at hno
      obtain ⟨hne, hall⟩ := hno
      -- otherwise all workers have ended before
      refine hne (hover ((hplays.isOver_iff hproper isLapsing_isBefore).mpr
        (forall_endsWhile_ofLives_iff.mpr fun life hlife => ?_)))
      have hends := not_not.mp fun hno => hall life ⟨hlife, hno⟩
      refine hends.imp fun time hlt => isBefore_iff.mpr ⟨by omega, ?_⟩
      refine s.stopped_eq_false_iff.mpr fun stop'' hs => ?_
      rw [hstop, Option.some.injEq] at hs
      omega
    · rintro ⟨hs, -⟩
      rw [hstop, Option.some.injEq] at hs
      exact hs

/-- What a worker does in a course is the beginning of its life. -/
theorem Unfolds.deedsOf_rounds_prefix (hlife : lives[i]? = some life) :
    deedsOf i c.rounds <+: story life.entries := by
  rw [h.deedsOf_rounds hproper hlife]
  have hsplit := filter_append_filter_not (pairwise_story hproper hlife) (isLapsing_le told)
  exact ⟨_, hsplit⟩

/-- When all workers have ended, their lives are over and told in full. -/
theorem Unfolds.deedsOf_rounds_eq (hlife : lives[i]? = some life)
    (hfinish : c.finish.isSome = true) :
    life.ending.told? = none ∧ deedsOf i c.rounds = story life.entries := by
  obtain ⟨hend, hall⟩ := (h.finish_isSome_iff hproper).mp hfinish life (List.mem_of_getElem? hlife)
  refine ⟨hend, ?_⟩
  rw [h.deedsOf_rounds hproper hlife, List.filter_eq_self]
  intro x hx
  obtain ⟨e, he, rfl⟩ := List.mem_map.mp hx
  exact decide_eq_true (hall e he)

omit hproper in
/-- Without a stop all is done before it. -/
theorem Unfolds.rounds_eq_before (hstop : c.stop = none) : c.rounds = c.before := by
  have hafter : c.after = [] := by
    cases h with
    | ended | untold => rfl
    | asked => exact absurd hstop (by simp)
  rw [Course.rounds, hafter]
  simp [Course.opening, Course.closing, hstop]

omit hproper in
theorem Unfolds.finish_eq_of_none {finish : Nat} (hstop : c.stop = none)
    (hfinish : c.finish = some finish) : finish = Course.lastTime 0 c.before := by
  cases h with
  | ended => exact (Option.some.inj hfinish).symm
  | untold => exact absurd hfinish (by simp)
  | asked => exact absurd hstop (by simp)

omit hproper in
theorem Unfolds.finish_eq_of_some {finish : Nat} (hstop : c.stop = some stop)
    (hfinish : c.finish = some finish) : finish = Course.lastTime stop c.after := by
  cases h with
  | ended | untold => exact absurd hstop (by simp)
  | @asked before after left left' stop' hplays hover hs hle hplays' =>
    have hsame : stop' = stop := Option.some.inj hstop
    dsimp only at hfinish
    rw [hsame] at hfinish
    split at hfinish
    · exact (Option.some.inj hfinish).symm
    · exact absurd hfinish (by simp)

/-- The workers do not end before they are asked to stop, and do nothing later than they end. -/
theorem Unfolds.le_finish {finish : Nat} (hstop : c.stop = some stop)
    (hfinish : c.finish = some finish) :
    stop ≤ finish ∧ ∀ r ∈ c.after, stop ≤ r.time ∧ r.time ≤ finish := by
  have hlast := h.finish_eq_of_some hstop hfinish
  have hs : s.stop = some stop := ((h.stop_eq_some_iff hproper).mp hstop).1
  have hle : ∀ r ∈ c.after, stop ≤ r.time ∧ r.time ≤ finish := by
    intro r hr
    obtain ⟨stop', hs', hle'⟩ := s.stopped_iff.mp (h.time_of_mem_after hproper r hr).2
    rw [hs, Option.some.injEq] at hs'
    rw [hlast]
    exact ⟨by omega, Course.le_lastTime stop (h.sorted_after hproper) r hr⟩
  refine ⟨?_, hle⟩
  rcases Course.lastTime_cases stop c.after with ⟨-, heq⟩ | ⟨r, hr, heq⟩
  · omega
  · have hr := (hle r hr).1
    omega

/-- Nothing is done later than the last worker ends. -/
theorem Unfolds.time_le_finish {finish : Nat} (hfinish : c.finish = some finish) :
    ∀ r ∈ c.rounds, r.time ≤ finish := by
  intro r hr
  cases hstop : c.stop with
  | none =>
    rw [h.rounds_eq_before hstop] at hr
    rw [h.finish_eq_of_none hstop hfinish]
    exact Course.le_lastTime 0 (h.sorted_before hproper) r hr
  | some stop =>
    obtain ⟨hle, hafter⟩ := h.le_finish hproper hstop hfinish
    rw [Course.rounds, List.mem_append, List.mem_append, List.mem_append] at hr
    rcases hr with ((hr | hr) | hr) | hr
    · have hbefore := (isBefore_iff.mp (h.time_of_mem_before r hr)).2
      have hs : s.stop = some stop := ((h.stop_eq_some_iff hproper).mp hstop).1
      have hlt := s.stopped_eq_false_iff.mp hbefore stop hs
      omega
    · simp only [Course.opening, hstop, Option.map_some, Option.mem_toList, Option.some.injEq] at hr
      rw [← hr]
      exact hle
    · exact (hafter r hr).2
    · simp only [Course.closing, hstop, hfinish, List.mem_singleton] at hr
      rw [hr]
      exact Nat.le_refl _

end

/-! ## The course of a run -/

/-- What surrounds the workers of a run. -/
def runSurroundings (world : World) (script : Script) : Surroundings :=
  ⟨script.completion, script.worldAt world⟩

/-- The workers of a run. -/
def Supervisor.workers (s : Supervisor) (jobs : List Job) : List Worker :=
  jobs.zipIdx.map fun j => s.worker j.1 j.2

theorem Supervisor.getElem?_workers (s : Supervisor) {jobs : List Job} (i : Fin jobs.length) :
    (s.workers jobs)[i.val]? = some (s.worker (jobs.get i) i) := by
  simp [Supervisor.workers]

/-- A worker of a run has two backends at least: its environment and its file. -/
theorem Supervisor.connectors_worker (s : Supervisor) (job : Job) (position : Nat) :
    ∃ env file, (s.worker job position).connectors = env :: file :: job.added ∧
      env.name = Backend.EnvironmentStore.kind ∧ file.name = Backend.FileStore.kind := by
  let backends := (job.resource.withDefaultName (Config.Resource.positionName position)).backends
  refine ⟨_, _, rfl, ?_, ?_⟩
  · cases backends.env <;> rfl
  · cases backends.file <;> rfl

theorem Supervisor.connectors_ne_nil (s : Supervisor) {jobs : List Job} :
    ∀ w ∈ s.workers jobs, w.connectors ≠ [] := by
  intro w hw
  obtain ⟨j, -, rfl⟩ := List.mem_map.mp hw
  obtain ⟨env, file, hc, -⟩ := s.connectors_worker j.1 j.2
  simp [hc]

end Steward.Supervision
