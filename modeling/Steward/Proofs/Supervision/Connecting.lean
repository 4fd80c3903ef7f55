import Steward.Proofs.Supervision.Chronicle
import Steward.Proofs.Supervision.Timing

/-!
# Connecting, told by its rules

`Connects` and `ConnectsAll` say by rules how connecting one backend, and several one after the
other, can go. The functions that tell it follow these rules (`connect_connects`,
`connectAll_connectsAll`), so what holds of all passages that the rules allow is proved by induction
on the rules.

Results:
* `ConnectsAll.obtained_eq`: what is obtained is what is held in the end, in the order of the
  backends.
* `ConnectsAll.mem_obtained_iff`: a session is obtained exactly where an attempt is completed and
  opens one.
* `Connects.isOrderly`, `ConnectsAll.isOrderly`: time does not go backwards.
* `Connects.stopped_eq_false`, `ConnectsAll.stopped_eq_false`: nothing is done at or after the time
  at which the worker is asked to stop.
-/

namespace Steward.Supervision

open Backend (Client Connector ConnectOutcome ConnectError)
open Worker (attemptEnd)

/-! ## Attempts -/

/-- The moment at which the attempt with a number is over that begins at `m`. -/
def attemptDone (c : Connector) (number : Nat) (m : Moment) : Moment :=
  attemptEnd m (c.attempt number).delay

/-- The attempt with a number that begins at `m` is completed, and this is how it ends. -/
structure Completes (s : Surroundings) (c : Connector) (number : Nat) (m : Moment)
    (o : ConnectOutcome) : Prop where
  begun : s.stopped m.time = false
  inTime : s.stopped (attemptDone c number m).time = false
  outcome : (c.attempt number).outcome (s.world (attemptDone c number m).time) = o

/-- The attempt with a number that begins at `m` is completed and opens a session. -/
def Grants (s : Surroundings) (c : Connector) (number : Nat) (m : Moment) : Prop :=
  ∃ client, Completes s c number m (.connected client)

theorem Completes.unique {s : Surroundings} {c : Connector} {number : Nat} {m : Moment}
    {o o' : ConnectOutcome} (h : Completes s c number m o) (h' : Completes s c number m o') :
    o = o' := by
  rw [← h.outcome, h'.outcome]

/-! ## The rules -/

/-- The entries of an attempt behind `before` others that begins at `m` and fails. -/
def failureEntries (w : Worker) (position : Nat) (c : Connector) (before : Nat) (m : Moment)
    (e : ConnectError) : List Entry :=
  ⟨m, .attempt position c.name⟩ ::
    (w.failureEvents c (before + 1) e).map fun event => ⟨attemptDone c before m, .publish event⟩

/-- How connecting the backend `c` at a position goes from a moment on, behind `before` attempts. -/
inductive Connects (w : Worker) (s : Surroundings) (position : Nat) (c : Connector) :
    (before : Nat) → Moment → Passage → Prop
  /-- It is not told any further. -/
  | untold {before : Nat} {m : Moment} (h : s.stopped m.time = false) :
      Connects w s position c before m { ending := .pending m.time }
  /-- The worker was asked to stop before the attempt. -/
  | asked {before : Nat} {m : Moment} (h : s.stopped m.time = true) :
      Connects w s position c before m { ending := .stopped m }
  /-- The worker is asked to stop during the attempt. -/
  | cutOff {before : Nat} {m : Moment} (begun : s.stopped m.time = false)
      (h : s.stopped (attemptDone c before m).time = true) :
      Connects w s position c before m
        { entries := [⟨m, .attempt position c.name⟩], ending := .stopped (s.stopMoment m) }
  /-- The attempt succeeds. -/
  | connected {before : Nat} {m : Moment} {client : Client}
      (h : Completes s c before m (.connected client)) :
      Connects w s position c before m
        { entries := [⟨m, .attempt position c.name⟩, ⟨attemptDone c before m, .obtain position⟩,
            ⟨attemptDone c before m,
              .publish ((w.backendEvent .backendConnected c).withAttempt (before + 1))⟩]
          clients := [{ client with session := position }]
          ending := .reached (attemptDone c before m) }
  /-- There is nothing to connect to. -/
  | skipped {before : Nat} {m : Moment} (h : Completes s c before m (.failed .notConfigured)) :
      Connects w s position c before m
        { entries := [⟨m, .attempt position c.name⟩,
            ⟨attemptDone c before m, .publish (w.backendEvent .backendSkipped c)⟩]
          ending := .reached (attemptDone c before m) }
  /-- The connector breaks down. -/
  | broken {before : Nat} {m : Moment} (h : Completes s c before m .broken) :
      Connects w s position c before m
        { entries := [⟨m, .attempt position c.name⟩], ending := .broken (attemptDone c before m) }
  /-- The worker is asked to stop in the pause after a failed attempt. -/
  | pausing {before : Nat} {m : Moment} {e : ConnectError}
      (h : Completes s c before m (.failed e)) (he : e ≠ .notConfigured)
      (hs : s.stopped ((attemptDone c before m).later w.retryDelay).time = true) :
      Connects w s position c before m
        { entries := failureEntries w position c before m e
          ending := .stopped (s.stopMoment (attemptDone c before m)) }
  /-- Another attempt follows a failed one. -/
  | again {before : Nat} {m : Moment} {e : ConnectError} {rest : Passage}
      (h : Completes s c before m (.failed e)) (he : e ≠ .notConfigured)
      (hs : s.stopped ((attemptDone c before m).later w.retryDelay).time = false)
      (hrest : Connects w s position c (before + 1)
        ((attemptDone c before m).later w.retryDelay) rest) :
      Connects w s position c before m
        { rest with entries := failureEntries w position c before m e ++ rest.entries }

/-- Connecting a backend follows the rules, if an attempt is told or the worker is not asked to stop
    before it. -/
theorem connect_connects (w : Worker) (s : Surroundings) (position : Nat) (c : Connector) :
    ∀ tries before m, 0 < tries ∨ s.stopped m.time = false →
      Connects w s position c before m (w.connect s position c tries before m) := by
  intro tries
  induction tries with
  | zero =>
    rintro before m (h | h)
    · omega
    · exact .untold h
  | succ tries ih =>
    intro before m _
    rw [Worker.connect]
    split
    · next hm => exact .asked hm
    · next hm =>
      have hm : s.stopped m.time = false := eq_false_of_ne_true hm
      dsimp only
      split
      · next hd => exact .cutOff hm hd
      · next hd =>
        have hd : s.stopped (attemptDone c before m).time = false := eq_false_of_ne_true hd
        split
        · next client ho => exact .connected ⟨hm, hd, ho⟩
        · next ho => exact .skipped ⟨hm, hd, ho⟩
        · next e he ho =>
          have he : e ≠ .notConfigured := fun h => he (h ▸ rfl)
          split
          · next hs => exact .pausing ⟨hm, hd, ho⟩ he hs
          · next hs =>
            have hs := eq_false_of_ne_true hs
            exact .again ⟨hm, hd, ho⟩ he hs (ih _ _ (.inr hs))
        · next ho => exact .broken ⟨hm, hd, ho⟩

/-- How connecting backends one after the other goes from a moment on. -/
inductive ConnectsAll (w : Worker) (s : Surroundings) :
    List (Connector × Nat) → Moment → Passage → Prop
  /-- All backends are connected. -/
  | done (m : Moment) : ConnectsAll w s [] m { ending := .reached m }
  /-- Behind a backend that is connected come the others. -/
  | next {c : Connector} {position : Nat} {others : List (Connector × Nat)} {m m' : Moment}
      {first rest : Passage} (hfirst : Connects w s position c 0 m first)
      (hend : first.ending = .reached m') (hrest : ConnectsAll w s others m' rest) :
      ConnectsAll w s ((c, position) :: others) m
        { entries := first.entries ++ rest.entries
          clients := first.clients ++ rest.clients
          ending := rest.ending }
  /-- It ends with a backend that is not. -/
  | last {c : Connector} {position : Nat} {others : List (Connector × Nat)} {m : Moment}
      {first : Passage} (hfirst : Connects w s position c 0 m first)
      (hend : ∀ m', first.ending ≠ .reached m') :
      ConnectsAll w s ((c, position) :: others) m first

/-- Connecting backends one after the other follows the rules. -/
theorem connectAll_connectsAll (w : Worker) (s : Surroundings) {tries : Nat} (h : 0 < tries) :
    ∀ cs m, ConnectsAll w s cs m (w.connectAll s tries cs m) := by
  intro cs
  induction cs with
  | nil => intro m; exact .done m
  | cons c others ih =>
    obtain ⟨c, position⟩ := c
    intro m
    have hfirst := connect_connects w s position c tries 0 m (.inl h)
    rw [Worker.connectAll]
    split
    · next m' hend => exact .next hfirst hend (ih m')
    · next hend => exact .last hfirst fun m' h => hend m' h

/-! ## What is obtained -/

variable {w : Worker} {s : Surroundings} {position before : Nat} {c : Connector} {m : Moment}
  {p : Passage} {cs : List (Connector × Nat)}

theorem isConnecting_failureEntries (e : ConnectError) :
    ∀ a ∈ failureEntries w position c before m e, a.deed.isConnecting position := by
  simp [failureEntries, Worker.failureEvents, Deed.isConnecting]

/-- Connecting a backend publishes events and does something about that backend only. -/
theorem Connects.isConnecting (h : Connects w s position c before m p) :
    ∀ e ∈ p.entries, e.deed.isConnecting position := by
  induction h with
  | untold | asked => simp
  | cutOff | connected | skipped | broken => simp [Deed.isConnecting]
  | pausing => exact isConnecting_failureEntries _
  | again _ _ _ _ ih =>
    intro e he
    rcases List.mem_append.mp he with he | he
    · exact isConnecting_failureEntries _ e he
    · exact ih e he

@[simp] theorem obtained_failureEntries (e : ConnectError) :
    obtained (failureEntries w position c before m e) = [] := rfl

@[simp] theorem attempts_failureEntries (e : ConnectError) :
    attempts position (failureEntries w position c before m e) = [m] := by
  simp [failureEntries, Worker.failureEvents, attempts, Deed.attempted?]

theorem Connects.obtained_eq (h : Connects w s position c before m p) :
    obtained p.entries = p.clients.map Client.session := by
  induction h with
  | untold | asked | cutOff | connected | skipped | broken => rfl
  | pausing => exact obtained_failureEntries _
  | again _ _ _ _ ih => rw [obtained_append, obtained_failureEntries, List.nil_append, ih]

/-- A backend hands over one session at most, its own. -/
theorem Connects.obtained_sublist (h : Connects w s position c before m p) :
    (obtained p.entries).Sublist [position] := by
  induction h with
  | untold | asked | cutOff | skipped | broken => exact List.nil_sublist _
  | connected => exact List.Sublist.refl _
  | pausing => exact List.nil_sublist _
  | again _ _ _ _ ih => rwa [obtained_append, obtained_failureEntries, List.nil_append]

/-- Connecting a backend leaves the others alone. -/
theorem Connects.attempts_eq_nil {other : Nat} (h : Connects w s position c before m p)
    (hne : position ≠ other) : attempts other p.entries = [] :=
  Supervision.attempts_eq_nil fun e he => Deed.attempted?_of_isConnecting (h.isConnecting e he) hne

theorem Connects.notMem_obtained {other : Nat} (h : Connects w s position c before m p)
    (hne : position ≠ other) : other ∉ obtained p.entries := by
  intro hm
  have := List.mem_singleton.mp (h.obtained_sublist.subset hm)
  exact hne this.symm

/-- Looking for an attempt in a list of moments: it is the first one or a later one. -/
theorem exists_getElem?_cons_iff {ms : List Moment} {P : Nat → Moment → Prop} :
    (∃ k m', (m :: ms)[k]? = some m' ∧ P k m') ↔
      P 0 m ∨ ∃ k m', ms[k]? = some m' ∧ P (k + 1) m' := by
  constructor
  · rintro ⟨k, m', hk, hP⟩
    cases k with
    | zero =>
      rw [List.getElem?_cons_zero, Option.some.injEq] at hk
      exact .inl (hk ▸ hP)
    | succ k => exact .inr ⟨k, m', by simpa using hk, hP⟩
  · rintro (h | ⟨k, m', hk, hP⟩)
    · exact ⟨0, m, by simp, h⟩
    · exact ⟨k + 1, m', by simpa using hk, hP⟩

/-- A session is obtained exactly where an attempt is completed and opens one. -/
theorem Connects.mem_obtained_iff (h : Connects w s position c before m p) :
    position ∈ obtained p.entries ↔
      ∃ k m', (attempts position p.entries)[k]? = some m' ∧ Grants s c (before + k) m' := by
  -- an attempt that ends in another way grants nothing
  have hno : ∀ {number m o}, Completes s c number m o → (∀ client, o ≠ .connected client) →
      ¬Grants s c number m :=
    fun h ho ⟨client, h'⟩ => ho client (h.unique h')
  induction h with
  | untold | asked => simp
  | @cutOff before m begun h =>
    have hg : ¬Grants s c before m := by
      rintro ⟨client, h'⟩
      rw [h'.inTime] at h
      exact absurd h (by simp)
    simpa [obtained, attempts, Deed.obtained?, Deed.attempted?, exists_getElem?_cons_iff] using hg
  | @connected before m client h =>
    have hg : Grants s c before m := ⟨client, h⟩
    simpa [obtained, attempts, Deed.obtained?, Deed.attempted?, exists_getElem?_cons_iff] using hg
  | skipped h =>
    have hg := hno h (by simp)
    simpa [obtained, attempts, Deed.obtained?, Deed.attempted?, exists_getElem?_cons_iff] using hg
  | broken h =>
    have hg := hno h (by simp)
    simpa [obtained, attempts, Deed.obtained?, Deed.attempted?, exists_getElem?_cons_iff] using hg
  | pausing h =>
    have hg := hno h (by simp)
    simpa [exists_getElem?_cons_iff] using hg
  | again h he hs hrest ih =>
    have hg := hno h (by simp)
    rw [obtained_append, obtained_failureEntries, List.nil_append, attempts_append,
      attempts_failureEntries, List.singleton_append, exists_getElem?_cons_iff]
    refine ih.trans ?_
    simp only [Nat.add_zero, hg, false_or, Nat.add_assoc, Nat.add_comm 1]

theorem ConnectsAll.isConnecting (h : ConnectsAll w s cs m p) :
    ∀ e ∈ p.entries, ∃ c ∈ cs, e.deed.isConnecting c.2 := by
  induction h with
  | done => simp
  | next hfirst hend hrest ih =>
    intro e he
    rcases List.mem_append.mp he with he | he
    · exact ⟨_, List.mem_cons_self, hfirst.isConnecting e he⟩
    · obtain ⟨c, hc, he⟩ := ih e he
      exact ⟨c, List.mem_cons_of_mem _ hc, he⟩
  | last hfirst hend => exact fun e he => ⟨_, List.mem_cons_self, hfirst.isConnecting e he⟩

/-- What is obtained is what is held in the end, in the same order. -/
theorem ConnectsAll.obtained_eq (h : ConnectsAll w s cs m p) :
    obtained p.entries = p.clients.map Client.session := by
  induction h with
  | done => rfl
  | next hfirst hend hrest ih => rw [obtained_append, hfirst.obtained_eq, ih, List.map_append]
  | last hfirst hend => exact hfirst.obtained_eq

/-- Each backend hands over one session at most, and they do so in their order. -/
theorem ConnectsAll.obtained_sublist (h : ConnectsAll w s cs m p) :
    (obtained p.entries).Sublist (cs.map Prod.snd) := by
  induction h with
  | done => exact List.Sublist.refl _
  | next hfirst hend hrest ih =>
    rw [obtained_append, List.map_cons, ← List.singleton_append]
    exact hfirst.obtained_sublist.append ih
  | last hfirst hend =>
    rw [List.map_cons, ← List.singleton_append]
    exact hfirst.obtained_sublist.trans (List.sublist_append_left _ _)

/-- Nothing is done about a backend that is not among those to connect. -/
theorem ConnectsAll.attempts_eq_nil (h : ConnectsAll w s cs m p)
    (hp : position ∉ cs.map Prod.snd) : attempts position p.entries = [] := by
  refine Supervision.attempts_eq_nil fun e he => ?_
  obtain ⟨c, hc, he⟩ := h.isConnecting e he
  exact Deed.attempted?_of_isConnecting he fun hne => hp (hne ▸ List.mem_map_of_mem hc)

theorem ConnectsAll.notMem_obtained (h : ConnectsAll w s cs m p)
    (hp : position ∉ cs.map Prod.snd) : position ∉ obtained p.entries :=
  fun hm => hp (h.obtained_sublist.subset hm)

/-- A session is obtained exactly where an attempt is completed and opens one. -/
theorem ConnectsAll.mem_obtained_iff (h : ConnectsAll w s cs m p) (hcs : (cs.map Prod.snd).Nodup)
    (hc : (c, position) ∈ cs) :
    position ∈ obtained p.entries ↔
      ∃ k m', (attempts position p.entries)[k]? = some m' ∧ Grants s c k m' := by
  induction h with
  | done => simp at hc
  | @next c' p' others m m' first rest hfirst hend hrest ih =>
    rw [List.map_cons, List.nodup_cons] at hcs
    rw [obtained_append, attempts_append, List.mem_append]
    rcases List.mem_cons.mp hc with heq | hc
    · -- the backend comes first, and the others leave it alone
      cases heq
      have hno := hrest.notMem_obtained hcs.1
      rw [hrest.attempts_eq_nil hcs.1, List.append_nil, or_iff_left hno, hfirst.mem_obtained_iff]
      simp only [Nat.zero_add]
    · -- the backend is one of the others, and the first one leaves it alone
      have hne : p' ≠ position := fun h => hcs.1 (List.mem_map.mpr ⟨_, hc, h.symm⟩)
      rw [hfirst.attempts_eq_nil hne, List.nil_append, or_iff_right (hfirst.notMem_obtained hne)]
      exact ih hcs.2 hc
  | @last c' p' others m first hfirst hend =>
    rw [List.map_cons, List.nodup_cons] at hcs
    rcases List.mem_cons.mp hc with heq | hc
    · cases heq
      rw [hfirst.mem_obtained_iff]
      simp only [Nat.zero_add]
    · have hne : p' ≠ position := fun h => hcs.1 (List.mem_map.mpr ⟨_, hc, h.symm⟩)
      simp [hfirst.attempts_eq_nil hne, hfirst.notMem_obtained hne]

/-! ## Time -/

theorem time_le_attemptDone (c : Connector) (number : Nat) (m : Moment) :
    m.time ≤ (attemptDone c number m).time := by
  unfold attemptDone attemptEnd
  split
  · exact Nat.le_refl _
  · exact Nat.le_refl _
  · rw [Moment.time_later]
    exact Nat.le_add_right _ _

theorem isOrderly_failureEntries (e : ConnectError) :
    IsOrderly m.time (failureEntries w position c before m e) (some (attemptDone c before m)) := by
  have hle := time_le_attemptDone c before m
  exact .cons (Nat.le_refl _) (isOrderly_of_forall_eq hle (by simp [Worker.failureEvents]))

/-- Time does not go backwards while a backend is connected. -/
theorem Connects.isOrderly (h : Connects w s position c before m p) :
    IsOrderly m.time p.entries p.ending.moment? := by
  induction h with
  | untold => exact isOrderly_nil (by simp [Ending.moment?])
  | asked => exact isOrderly_nil (by simp [Ending.moment?])
  | cutOff begun h =>
    refine .cons (Nat.le_refl _) (isOrderly_nil fun m' hm' => ?_)
    cases hm'
    exact s.le_stopMoment begun h
  | @connected before m client h =>
    exact .cons (Nat.le_refl _) (isOrderly_of_forall_eq (time_le_attemptDone c before m) (by simp))
  | @skipped before m h =>
    exact .cons (Nat.le_refl _) (isOrderly_of_forall_eq (time_le_attemptDone c before m) (by simp))
  | @broken before m h =>
    exact .cons (Nat.le_refl _) (isOrderly_of_forall_eq (time_le_attemptDone c before m) (by simp))
  | @pausing before m e h he hs =>
    refine ((isOrderly_failureEntries e).append (isOrderly_nil fun m' hm' => ?_)).of_append_nil
    cases hm'
    exact s.le_stopMoment h.inTime hs
  | @again before m e rest h he hs hrest ih =>
    have hle :
        (attemptDone c before m).time ≤ ((attemptDone c before m).later w.retryDelay).time := by
      simp
    exact (isOrderly_failureEntries e).append (ih.mono hle)

theorem stopped_failureEntries {e : ConnectError} (h : Completes s c before m (.failed e)) :
    ∀ a ∈ failureEntries w position c before m e, s.stopped a.moment.time = false := by
  simp [failureEntries, Worker.failureEvents, h.begun, h.inTime]

/-- Nothing is done about a backend at or after the time at which the worker is asked to stop. -/
theorem Connects.stopped_eq_false (h : Connects w s position c before m p) :
    ∀ e ∈ p.entries, s.stopped e.moment.time = false := by
  induction h with
  | untold | asked => simp
  | cutOff begun => simp [begun]
  | connected h | skipped h | broken h => simp [h.begun, h.inTime]
  | pausing h => exact stopped_failureEntries h
  | again h he hs hrest ih =>
    intro a ha
    rcases List.mem_append.mp ha with ha | ha
    · exact stopped_failureEntries h a ha
    · exact ih a ha

/-- Connecting a backend from a moment on that is not behind the stop ends in time. -/
theorem Connects.agrees (h : Connects w s position c before m p)
    (hm : s.stopped m.time = true → s.stop = some m.time) : p.ending.Agrees s := by
  induction h with
  | untold h => exact h
  | asked h => exact hm h
  | cutOff begun h => exact s.stop_eq_stopMoment h
  | connected h | skipped h | broken h => exact h.inTime
  | pausing h he hs => exact s.stop_eq_stopMoment hs
  | again h he hs hrest ih => exact ih fun ht => absurd (hs.symm.trans ht) (by simp)

/-- Time does not go backwards while backends are connected. -/
theorem ConnectsAll.isOrderly (h : ConnectsAll w s cs m p) :
    IsOrderly m.time p.entries p.ending.moment? := by
  induction h with
  | done m => exact isOrderly_nil fun m' hm' => by cases hm'; exact Nat.le_refl _
  | next hfirst hend hrest ih =>
    have hf := hfirst.isOrderly
    rw [hend] at hf
    exact hf.append ih
  | last hfirst hend => exact hfirst.isOrderly

theorem ConnectsAll.stopped_eq_false (h : ConnectsAll w s cs m p) :
    ∀ e ∈ p.entries, s.stopped e.moment.time = false := by
  induction h with
  | done => simp
  | next hfirst hend hrest ih =>
    intro e he
    rcases List.mem_append.mp he with he | he
    · exact hfirst.stopped_eq_false e he
    · exact ih e he
  | last hfirst hend => exact hfirst.stopped_eq_false

/-- Connecting backends, of which there is one at least, from a moment on that is not behind the
    stop ends in time. -/
theorem ConnectsAll.agrees (h : ConnectsAll w s cs m p) (hcs : cs ≠ [])
    (hm : s.stopped m.time = true → s.stop = some m.time) : p.ending.Agrees s := by
  induction h with
  | done => exact absurd rfl hcs
  | @next c position others m m' first rest hfirst hend hrest ih =>
    have hm' := hfirst.agrees hm
    rw [hend] at hm'
    cases hrest with
    | done => exact hm'
    | next hfirst' hend' hrest' =>
      exact ih (by simp) fun ht => absurd (hm'.symm.trans ht) (by simp)
    | last hfirst' hend' => exact ih (by simp) fun ht => absurd (hm'.symm.trans ht) (by simp)
  | last hfirst hend => exact hfirst.agrees hm

end Steward.Supervision
