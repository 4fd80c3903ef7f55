import Steward.Proofs.Event.Words
import Steward.Proofs.Supervision.EventTrace
import Steward.Proofs.Supervision.Retries

/-!
# The numbers of attempts

What is published about an attempt tells its number, counted from one for each backend, up to the
greatest count. An attempt that fails is told of twice, with its number and with the pause behind it,
which is cut down in the same way; but the worker pauses in full.

`trials` reads the attempts on a backend in a chronicle together with what is told about each of them.

Results:
* `map_begun_trials`: the trials on a backend are the attempts on it.
* `Connects.areCounted`, `ConnectsAll.trials_cases`, `Phases.trials_eq`: the trials while one backend
  is connected, while all are, and in a whole life.
* `Supervisor.worker_counts`: the counts in the life of a worker, and what is left of any count.
-/

namespace Steward.Supervision

open Backend (Client Connector ConnectOutcome)

/-! ## Trials -/

/-- True if an event tells the number of an attempt. -/
def tellsAttempt (e : Event) : Bool :=
  e.kind = .backendConnected || e.kind = .backendConnectFailed || e.kind = .retryScheduled

/-- What is told about attempts before the next one is begun. -/
def lead (es : List Entry) : List Event :=
  (events (es.takeWhile fun e => e.deed.attempted?.isNone)).filter tellsAttempt

/-- An attempt, as a chronicle tells it. -/
structure Trial where
  /-- When it is begun. -/
  begun : Moment
  /-- What is told about attempts before the next one is begun. -/
  told : List Event

/-- The attempts on the backend at a position. -/
def trials (position : Nat) : List Entry → List Trial
  | [] => []
  | e :: es =>
    if e.deed.attempted? = some position then ⟨e.moment, lead es⟩ :: trials position es
    else trials position es

variable {position : Nat} {e : Entry} {es fs : List Entry}

@[simp] theorem lead_nil : lead [] = [] := rfl

theorem lead_of_attempt (h : e.deed.attempted?.isSome) : lead (e :: es) = [] := by
  rw [lead, List.takeWhile_cons_of_neg (by simp [Option.isSome_iff_ne_none.mp h])]
  rfl

theorem lead_cons (h : e.deed.attempted? = none) :
    lead (e :: es) = e.deed.event?.toList.filter tellsAttempt ++ lead es := by
  rw [lead, List.takeWhile_cons_of_pos (by simp [h]), events_cons, List.filter_append]
  rfl

/-- Where no event tells of attempts, none does so before the next one. -/
theorem lead_eq_nil (h : ∀ e ∈ events es, tellsAttempt e = false) : lead es = [] := by
  refine List.filter_eq_nil_iff.mpr fun e he => ?_
  rw [h e (((List.takeWhile_sublist _).filterMap _).subset he)]
  exact Bool.false_ne_true

theorem lead_append (h : lead fs = []) : lead (es ++ fs) = lead es := by
  induction es with
  | nil => exact h
  | cons e es ih =>
    cases he : e.deed.attempted? with
    | some i => rw [List.cons_append, lead_of_attempt (by simp [he]), lead_of_attempt (by simp [he])]
    | none => rw [List.cons_append, lead_cons he, lead_cons he, ih]

theorem trials_append (h : lead fs = []) :
    trials position (es ++ fs) = trials position es ++ trials position fs := by
  induction es with
  | nil => rfl
  | cons e es ih =>
    rw [List.cons_append, trials, trials, lead_append h, ih]
    split <;> rfl

theorem map_begun_trials : (trials position es).map Trial.begun = attempts position es := by
  induction es with
  | nil => rfl
  | cons e es ih =>
    rw [trials, attempts_cons]
    split <;> simp [ih]

theorem trials_eq_nil (h : attempts position es = []) : trials position es = [] := by
  rw [← map_begun_trials] at h
  exact List.map_eq_nil_iff.mp h

/-- An attempt without another one behind it. -/
theorem trials_of_attempt {m : Moment} {backend : String} (h : attempts position es = []) :
    trials position (⟨m, .attempt position backend⟩ :: es) = [⟨m, lead es⟩] := by
  refine (if_pos rfl).trans ?_
  rw [trials_eq_nil h]

/-! ## What is told about a trial -/

/-- The kinds of events that tell of a completed attempt, depending on how it ends. -/
def kindsAfter : ConnectOutcome → List EventKind
  | .connected _ => [.backendConnected]
  | .failed e => if e.isRetryable then [.backendConnectFailed, .retryScheduled] else []
  | .broken => []

/-- The numbers that are told about some trials. -/
def numbers (ts : List Trial) : List Nat := (ts.flatMap Trial.told).filterMap Event.attempt

section Counted
variable (w : Worker) (s : Surroundings) (c : Connector)

/-- What is told about the trial behind `before` others. -/
structure IsCounted (before : Nat) (t : Trial) : Prop where
  /-- It is told about this backend. -/
  names : ∀ e ∈ t.told, e.resource = some w.name ∧ e.backend = some c.name
  /-- The number counts this trial too, up to the greatest count. -/
  number : ∀ e ∈ t.told, e.attempt = some (min (before + 1) (UInt32.size - 1))
  /-- This is what a counter of 32 bits shows that was advanced at each trial. -/
  shown : ∀ e ∈ t.told, e.attempt = some (reading (before + 1)).toNat
  /-- The pause is told up to the greatest count. -/
  delay : ∀ e ∈ t.told, e.kind = .retryScheduled →
    e.delay = some (min w.retryDelay (UInt32.size - 1))
  /-- A completed attempt is told of, unless it leads to nothing. -/
  kinds : ∀ o, Completes s c before t.begun o → t.told.map Event.kind = kindsAfter o
  /-- An attempt that is cut off is not told of. -/
  cutOff : (∀ o, ¬Completes s c before t.begun o) → t.told = []

/-- What is told about the trials behind `before` others. -/
structure AreCounted (before : Nat) (ts : List Trial) : Prop where
  /-- Each trial is counted. -/
  counted : ∀ t ∈ ts.zipIdx before, IsCounted w s c t.2 t.1
  /-- The next trial is begun when the whole pause is over, whatever was told of it. -/
  paused : (ts.zipIdx before).IsChain fun t t' =>
    t'.1.begun.time = (attemptDone c t.2 t.1.begun).time + w.retryDelay
  /-- The numbers never decrease. -/
  ordered : (numbers ts).Pairwise (· ≤ ·)
  /-- They start behind those of the others. -/
  first : ∀ n ∈ (numbers ts).head?, n = min (before + 1) (UInt32.size - 1)

end Counted

variable {w : Worker} {s : Surroundings} {c : Connector} {before : Nat} {m : Moment} {p : Passage}
  {cs : List (Connector × Nat)} {t : Trial} {ts : List Trial} {told : List Event}

/-- What is told about a completed attempt settles how it is counted. -/
theorem isCounted_of_completes {o : ConnectOutcome} (h : Completes s c before m o)
    (hkinds : told.map Event.kind = kindsAfter o)
    (htold : ∀ e ∈ told, e.resource = some w.name ∧ e.backend = some c.name ∧
      e.attempt = some (saturate (before + 1)) ∧
      (e.kind = .retryScheduled → e.delay = some (saturate w.retryDelay))) :
    IsCounted w s c before ⟨m, told⟩ where
  names e he := ⟨(htold e he).1, (htold e he).2.1⟩
  number e he := (htold e he).2.2.1
  shown e he := (htold e he).2.2.1.trans (congrArg some (toNat_reading _).symm)
  delay e he := (htold e he).2.2.2
  kinds _ h' := h'.unique h ▸ hkinds
  cutOff hno := absurd h (hno o)

theorem isCounted_of_cutOff (h : s.stopped (attemptDone c before m).time = true) :
    IsCounted w s c before ⟨m, []⟩ where
  names := by simp
  number := by simp
  shown := by simp
  delay := by simp
  kinds _ h' := absurd h'.inTime (by simp [h])
  cutOff _ := rfl

theorem areCounted_nil : AreCounted w s c before [] where
  counted := by simp
  paused := .nil
  ordered := .nil
  first := by simp [numbers]

theorem numbers_cons : numbers (t :: ts) = t.told.filterMap Event.attempt ++ numbers ts := by
  rw [numbers, List.flatMap_cons, List.filterMap_append]
  rfl

theorem IsCounted.eq_of_mem {n : Nat} (h : IsCounted w s c before t)
    (hn : n ∈ t.told.filterMap Event.attempt) : n = saturate (before + 1) := by
  obtain ⟨e, he, hattempt⟩ := List.mem_filterMap.mp hn
  rw [h.number e he] at hattempt
  exact (Option.some.inj hattempt).symm

/-- Trials behind others have greater numbers, or the greatest count like those. -/
theorem AreCounted.le_of_mem {n : Nat} (h : AreCounted w s c before ts) (hn : n ∈ numbers ts) :
    saturate (before + 1) ≤ n := by
  obtain ⟨e, he, hattempt⟩ := List.mem_filterMap.mp hn
  obtain ⟨t, ht, he⟩ := List.mem_flatMap.mp he
  obtain ⟨k, hk⟩ := List.mem_iff_getElem?.mp ht
  have hmem : (t, before + k) ∈ ts.zipIdx before :=
    List.mem_iff_getElem?.mpr ⟨k, by rw [List.getElem?_zipIdx, hk]; rfl⟩
  have hcounted : IsCounted w s c (before + k) t := h.counted _ hmem
  rw [hcounted.eq_of_mem (List.mem_filterMap.mpr ⟨e, he, hattempt⟩)]
  exact saturate_le_saturate (by omega)

/-- Trials behind one that is told of. -/
theorem AreCounted.cons (ht : IsCounted w s c before t) (htold : t.told = [] → ts = [])
    (hts : AreCounted w s c (before + 1) ts)
    (hpause : ∀ t' ∈ ts.head?,
      t'.begun.time = (attemptDone c before t.begun).time + w.retryDelay) :
    AreCounted w s c before (t :: ts) where
  counted := by
    rw [List.zipIdx_cons]
    exact List.forall_mem_cons.mpr ⟨ht, hts.counted⟩
  paused := by
    cases ts with
    | nil => exact .singleton _
    | cons t' ts => exact .cons_cons (hpause t' rfl) hts.paused
  ordered := by
    rw [numbers_cons]
    refine List.pairwise_append.mpr ⟨?_, hts.ordered, fun n hn n' hn' => ?_⟩
    · refine List.pairwise_of_forall_mem_list fun n hn n' hn' => ?_
      rw [ht.eq_of_mem hn, ht.eq_of_mem hn']
    · rw [ht.eq_of_mem hn]
      exact Nat.le_trans (saturate_le_saturate (Nat.le_succ _)) (hts.le_of_mem hn')
  first := by
    rw [numbers_cons]
    intro n hn
    cases hnumbers : t.told.filterMap Event.attempt with
    | nil =>
      -- every event tells a number, so there is none, and no trial behind this one
      have hnone : t.told = [] := List.eq_nil_iff_forall_not_mem.mpr fun e he => by
        have := List.filterMap_eq_nil_iff.mp hnumbers e he
        rw [ht.number e he] at this
        cases this
      rw [hnumbers, htold hnone] at hn
      cases hn
    | cons n' ns =>
      rw [hnumbers] at hn
      obtain rfl : n' = n := Option.some.inj hn
      exact ht.eq_of_mem (hnumbers ▸ List.mem_cons_self)

theorem areCounted_singleton (ht : IsCounted w s c before t) : AreCounted w s c before [t] :=
  areCounted_nil.cons ht (fun _ => rfl) (by simp)

/-! ## One backend -/

/-- Connecting begins with an attempt, if it does anything. -/
theorem Connects.lead_eq_nil (h : Connects w s position c before m p) : lead p.entries = [] := by
  cases h <;> rfl

theorem Connects.begun_eq (h : Connects w s position c before m p) :
    ∀ t ∈ (trials position p.entries).head?, t.begun = m := by
  intro t ht
  have hhead : (attempts position p.entries).head? = some t.begun := by
    rw [← map_begun_trials, List.head?_map, ht]
    rfl
  cases h with
  | untold | asked => cases ht
  | cutOff | connected | skipped | broken =>
    simpa [attempts_cons, Deed.attempted?, eq_comm] using hhead
  | pausing | again => simpa [eq_comm] using hhead

/-- What is told about an attempt that fails and can be repeated. -/
theorem trials_failureEntries (e : Backend.ConnectError) :
    trials position (failureEntries w position c before m e) =
      [⟨m, w.failureEvents c (before + 1) e⟩] := by
  rw [failureEntries, trials_of_attempt rfl]
  rfl

theorem isCounted_failure {e : Backend.ConnectError} (h : Completes s c before m (.failed e))
    (he : e ≠ .notConfigured) : IsCounted w s c before ⟨m, w.failureEvents c (before + 1) e⟩ := by
  have hretryable : e.isRetryable = true := by simpa [Backend.ConnectError.isRetryable] using he
  refine isCounted_of_completes h ?_ ?_
  · rw [kindsAfter, if_pos hretryable]
    rfl
  · simp [Worker.failureEvents, Worker.backendEvent, Worker.event, Event.withAttempt,
      Event.withDelay, delayCount]

/-- The trials while a backend is connected. -/
theorem Connects.areCounted (h : Connects w s position c before m p) :
    AreCounted w s c before (trials position p.entries) := by
  induction h with
  | untold | asked => exact areCounted_nil
  | cutOff begun h =>
    rw [trials_of_attempt rfl]
    exact areCounted_singleton (isCounted_of_cutOff h)
  | connected h =>
    rw [trials_of_attempt rfl]
    exact areCounted_singleton (isCounted_of_completes h rfl (by
      simp [lead, events, Deed.attempted?, Deed.event?, tellsAttempt, Event.withAttempt,
        Worker.backendEvent, Worker.event]))
  | skipped h =>
    rw [trials_of_attempt rfl]
    exact areCounted_singleton (isCounted_of_completes h rfl (by
      simp [lead, events, Deed.attempted?, Deed.event?, tellsAttempt, Worker.backendEvent,
        Worker.event]))
  | broken h =>
    rw [trials_of_attempt rfl]
    exact areCounted_singleton (isCounted_of_completes h rfl (by simp))
  | pausing h he hs =>
    rw [trials_failureEntries]
    exact areCounted_singleton (isCounted_failure h he)
  | again h he hs hrest ih =>
    -- this one is told of, so another one may stand behind it
    rw [trials_append hrest.lead_eq_nil, trials_failureEntries]
    refine ih.cons (isCounted_failure h he) ?_ fun t' ht' => ?_
    · intro hnil
      cases hnil
    · rw [hrest.begun_eq t' ht', Moment.time_later]

/-! ## All backends -/

theorem ConnectsAll.lead_eq_nil (h : ConnectsAll w s cs m p) : lead p.entries = [] := by
  induction h with
  | done => rfl
  | next hfirst hend hrest ih => rw [lead_append ih, hfirst.lead_eq_nil]
  | last hfirst hend => exact hfirst.lead_eq_nil

/-- While backends are connected one after the other, the trials on one of them are those while it is
    connected, if it is come to. -/
theorem ConnectsAll.trials_cases (h : ConnectsAll w s cs m p) (hcs : (cs.map Prod.snd).Nodup)
    (hc : (c, position) ∈ cs) :
    trials position p.entries = [] ∨
      ∃ m' q, Connects w s position c 0 m' q ∧
        trials position p.entries = trials position q.entries := by
  induction h with
  | done => cases hc
  | @next c' position' others m m' first rest hfirst hend hrest ih =>
    rw [List.map_cons, List.nodup_cons] at hcs
    rw [trials_append hrest.lead_eq_nil]
    rcases List.mem_cons.mp hc with heq | hothers
    · obtain ⟨rfl, rfl⟩ := Prod.mk.inj heq
      rw [trials_eq_nil (hrest.attempts_eq_nil hcs.1), List.append_nil]
      exact .inr ⟨_, _, hfirst, rfl⟩
    · have hne : position' ≠ position := fun heq =>
        hcs.1 (List.mem_map.mpr ⟨_, hothers, heq.symm⟩)
      rw [trials_eq_nil (hfirst.attempts_eq_nil hne), List.nil_append]
      exact ih hcs.2 hothers
  | @last c' position' others m first hfirst hend =>
    rw [List.map_cons, List.nodup_cons] at hcs
    rcases List.mem_cons.mp hc with heq | hothers
    · obtain ⟨rfl, rfl⟩ := Prod.mk.inj heq
      exact .inr ⟨_, _, hfirst, rfl⟩
    · have hne : position' ≠ position := fun heq =>
        hcs.1 (List.mem_map.mpr ⟨_, hothers, heq.symm⟩)
      exact .inl (trials_eq_nil (hfirst.attempts_eq_nil hne))

theorem ConnectsAll.areCounted (h : ConnectsAll w s cs m p) (hcs : (cs.map Prod.snd).Nodup)
    (hc : (c, position) ∈ cs) : AreCounted w s c 0 (trials position p.entries) := by
  rcases h.trials_cases hcs hc with hnil | ⟨m', q, hconnects, htrials⟩
  · rw [hnil]
    exact areCounted_nil
  · rw [htrials]
    exact hconnects.areCounted

/-! ## The whole life -/

variable {life connecting work : Passage} {clients : List Client} {ending : Ending}

/-- Nothing is told about attempts while the worker works. -/
theorem Works.tellsAttempt_eq_false (h : Works w s clients ending work) :
    ∀ e ∈ events work.entries, tellsAttempt e = false := by
  by_cases hend : ∃ m, ending = .reached m
  · obtain ⟨m, rfl⟩ := hend
    rcases h.events_eq with ⟨build, rfl | ⟨reason, rfl⟩, hevents⟩ | ⟨hevents, -⟩ <;>
      simp [hevents, tellsAttempt, Worker.event]
  · rw [h.eq_idle fun m hm => hend ⟨m, hm⟩]
    simp

/-- Nothing is told about attempts while the worker takes its leave. -/
theorem tellsAttempt_leave (w : Worker) (clients : List Client) (ending : Ending) :
    ∀ e ∈ events (leave w clients ending), tellsAttempt e = false := by
  rw [events_leave]
  cases ending <;> simp [tellsAttempt, Worker.event, Event.withReleased]

/-- The trials in a life are those while the backends are connected. -/
theorem Phases.trials_eq (h : Phases w s life connecting work) (position : Nat) :
    trials position life.entries = trials position connecting.entries := by
  have hafter : lead (work.entries ++ leave w connecting.clients work.ending) = [] := by
    refine Supervision.lead_eq_nil ?_
    rw [events_append]
    exact List.forall_mem_append.mpr ⟨h.works.tellsAttempt_eq_false, tellsAttempt_leave w _ _⟩
  have hnone : attempts position (work.entries ++ leave w connecting.clients work.ending) = [] := by
    refine attempts_eq_nil (List.forall_mem_append.mpr ⟨fun a ha => ?_, fun a ha => ?_⟩)
    · simp [Deed.attempted?_of_isWorking (h.works.isWorking a ha)]
    · simp [Deed.attempted?_of_isLeaving (isLeaving_of_mem_leave ha)]
  rw [h.entries, trials, if_neg (by simp [announced, Deed.attempted?]), List.append_assoc,
    trials_append hafter, trials_eq_nil hnone, List.append_nil]

/-- **Counts saturate.** In the life of a worker every attempt on a backend is told of with its
    number, counted from one, or with the greatest count; so the numbers on one backend never
    decrease. The pause behind a failed attempt is told in the same way, but the next attempt begins
    when all of it is over.

    The greatest count is what a counter of 32 bits shows that was advanced too often. A length of
    time is told in milliseconds and a number of closed sessions as it is, both up to the greatest
    count, as computed in words; longer times and greater numbers are not told as less. -/
theorem Supervisor.worker_counts (s : Supervisor) (job : Job) (position : Nat)
    (surroundings : Surroundings) (horizon : Nat) :
    let w := s.worker job position
    let life := w.life surroundings horizon
    (∀ i, (trials i life.entries).map Trial.begun = attempts i life.entries) ∧
    (∀ i c, w.connectors[i]? = some c →
      AreCounted w surroundings c 0 (trials i life.entries)) ∧
    (∀ times, (reading times).toNat = min times (UInt32.size - 1)) ∧
    (∀ (e : Event) (d : Duration), (e.withDelay d.total).delay = some (narrow d.milliseconds).toNat ∧
      (narrow d.milliseconds).toNat = min (d.total / 1000000) (UInt32.size - 1)) ∧
    (∀ d d' : Duration, d.total ≤ d'.total → narrow d.milliseconds ≤ narrow d'.milliseconds) ∧
    (∀ width ≥ 32, ∀ (e : Event) (n : BitVec width),
      (e.withReleased n.toNat).released = some (narrow n).toNat ∧
      (narrow n).toNat = min n.toNat (UInt32.size - 1)) ∧
    ∀ width ≥ 32, ∀ n n' : BitVec width, n ≤ n' → narrow n ≤ narrow n' := by
  intro w life
  have hdelay (d : Duration) : (narrow d.milliseconds).toNat = saturate (d.total / 1000000) := by
    rw [toNat_narrow (by decide), d.toNat_milliseconds]
  refine ⟨fun i => map_begun_trials, fun i c hc => ?_, toNat_reading, fun e d => ?_,
    fun d d' hle => ?_, fun width hwidth e n => ?_, fun width hwidth n n' hle => ?_⟩
  · obtain ⟨connecting, work, hphases⟩ := life_phases w surroundings horizon
    rw [hphases.trials_eq]
    exact hphases.connects.areCounted (nodup_positions w) (List.mem_zipIdx_iff_getElem?.mpr hc)
  · exact ⟨congrArg some (hdelay d).symm, hdelay d⟩
  · rw [UInt32.le_iff_toNat_le, hdelay, hdelay]
    exact saturate_le_saturate (Nat.div_le_div_right hle)
  · exact ⟨congrArg some (toNat_narrow hwidth n).symm, toNat_narrow hwidth n⟩
  · rw [UInt32.le_iff_toNat_le, toNat_narrow hwidth, toNat_narrow hwidth]
    exact saturate_le_saturate hle

/-- A backend that never connects. -/
def never : Connector where
  name := "far"
  attempt _ := { outcome := fun _ => .failed (.failed "far" "refused") }

/-- A job with a backend that never connects. -/
def Job.hopeless : Job := { resource := {}, added := [never] }

/-- A supervisor whose workers pause for longer than can be told. -/
def Supervisor.patient : Supervisor := start { retryDelay := 5000000000 } (fun _ _ _ => .broken) []

theorem time_attemptStart_never (k : Nat) :
    (attemptStart (Supervisor.patient.worker .hopeless 0) never {} k).time = k * 5000000000 := by
  induction k with
  | zero => rfl
  | succ k ih =>
    rw [time_attemptStart_succ]
    change (attemptStart (Supervisor.patient.worker .hopeless 0) never {} k).time + 5000000000 = _
    rw [ih, Nat.succ_mul]

/-- Behind more attempts than can be counted, each one is told of with the greatest count, and so is
    the pause, which is longer. -/
theorem Supervisor.worker_counts_hopeless :
    ∃ horizon t, (trials 2 ((patient.worker .hopeless 0).life ⟨none, fun _ => {}⟩
        horizon).entries)[4294967299]? = some t ∧
      t.begun.time = 4294967299 * 5000000000 ∧
      t.told.map Event.kind = [.backendConnectFailed, .retryScheduled] ∧
      (∀ e ∈ t.told, e.attempt = some 4294967295) ∧
      ∀ e ∈ t.told, e.kind = .retryScheduled → e.delay = some 4294967295 := by
  have hfailing (j : Nat) :
      IsRetried (outcomeAt (patient.worker .hopeless 0) (fun _ => {}) never {} j) :=
    ⟨.failed "far" "refused", rfl, rfl⟩
  -- the environment and the file are not configured
  have hskipped (kind : String) : Resolves (patient.worker .hopeless 0) (fun _ => {})
      (.unconfigured kind) {} 0 none := ⟨by simp, rfl⟩
  have hreaches : Reaches (patient.worker .hopeless 0) (fun _ => {})
      (patient.worker .hopeless 0).connectors.zipIdx {} [(never, 2)] {} :=
    .behind (hskipped _) (.behind (hskipped _) (.here _ _))
  obtain ⟨horizon, hlife⟩ := life_of_failing hreaches hfailing 4294967300
  obtain ⟨⟨tries, htries, hattempts⟩, -⟩ := hlife horizon (Nat.le_refl _)
  obtain ⟨hbegun, hcounted, -⟩ := patient.worker_counts .hopeless 0 ⟨none, fun _ => {}⟩ horizon
  set ts := trials 2 ((patient.worker .hopeless 0).life ⟨none, fun _ => {}⟩ horizon).entries
  have hstart : (ts.map Trial.begun)[4294967299]? =
      some (attemptStart (patient.worker .hopeless 0) never {} 4294967299) := by
    rw [hbegun 2, hattempts, List.getElem?_map, List.getElem?_range (by omega)]
    rfl
  rw [List.getElem?_map, Option.map_eq_some_iff] at hstart
  obtain ⟨t, ht, hstart⟩ := hstart
  have hc := (hcounted 2 never rfl).counted (t, 4294967299) (List.mem_zipIdx_iff_getElem?.mpr ht)
  refine ⟨horizon, t, ht, ?_, hc.kinds _ (completes_none _ never 4294967299 t.begun), hc.number,
    hc.delay⟩
  rw [hstart, time_attemptStart_never]

end Steward.Supervision
