import Steward.Proofs.Supervision.Attempts
import Steward.Proofs.Supervision.Course
import Steward.Proofs.Supervision.Release

/-!
# How attempts are repeated

A worker that is not asked to stop repeats an attempt that failed after a pause that is always the
same, as often as it fails. The first attempt that does not fail resolves the backend: it gives one
client, or none if the backend is not configured. At that moment the worker begins with the next
backend.

Results:
* `connect_of_retried`, `connect_of_resolves`: the attempts on one backend.
* `connectAll_of_reaches`: a backend is come to when those before it are resolved.
* `Supervisor.worker_retries`: the attempts in the life of a worker.
-/

namespace Steward.Supervision

open Backend (Client Connector ConnectOutcome)

/-! ## What is to be expected of a backend -/

/-- When the attempts on a backend begin, from the first one at `m` on, if those before fail. -/
def attemptStart (w : Worker) (c : Connector) (m : Moment) : Nat → Moment
  | 0 => m
  | k + 1 => (attemptDone c k (attemptStart w c m k)).later w.retryDelay

/-- When these attempts are over. -/
def attemptOver (w : Worker) (c : Connector) (m : Moment) (k : Nat) : Moment :=
  attemptDone c k (attemptStart w c m k)

/-- How these attempts end. -/
def outcomeAt (w : Worker) (world : Nat → World) (c : Connector) (m : Moment) (k : Nat) :
    ConnectOutcome :=
  (c.attempt k).outcome (world (attemptOver w c m k).time)

/-- How an attempt ends that resolves a backend: with a client, or with the finding that there is
    nothing to connect to. -/
def resolution : Option Client → ConnectOutcome
  | some client => .connected client
  | none => .failed .notConfigured

/-- Behind `k` attempts that fail there is one that resolves the backend. -/
structure Resolves (w : Worker) (world : Nat → World) (c : Connector) (m : Moment) (k : Nat)
    (client? : Option Client) : Prop where
  retried : ∀ j < k, IsRetried (outcomeAt w world c m j)
  resolved : outcomeAt w world c m k = resolution client?

/-- From some backends at a moment on, others are come to at another one: those in front of them are
    resolved one after the other. -/
inductive Reaches (w : Worker) (world : Nat → World) :
    List (Connector × Nat) → Moment → List (Connector × Nat) → Moment → Prop
  /-- Nothing is in front of them. -/
  | here (cs : List (Connector × Nat)) (m : Moment) : Reaches w world cs m cs m
  /-- The first backend is resolved, and the worker goes on at that moment. -/
  | behind {c : Connector} {position k : Nat} {others cs : List (Connector × Nat)} {m m' : Moment}
      {client? : Option Client} (hfirst : Resolves w world c m k client?)
      (hrest : Reaches w world others (attemptOver w c m k) cs m') :
      Reaches w world ((c, position) :: others) m cs m'

variable {w : Worker} {world : Nat → World} {c : Connector} {position k n tries : Nat}
  {m m' : Moment} {client? : Option Client} {cs others : List (Connector × Nat)}

theorem time_attemptStart_succ (w : Worker) (c : Connector) (m : Moment) (k : Nat) :
    (attemptStart w c m (k + 1)).time = (attemptOver w c m k).time + w.retryDelay := by
  rw [attemptStart, Moment.time_later]
  rfl

theorem completes_outcomeAt (w : Worker) (world : Nat → World) (c : Connector) (m : Moment)
    (k : Nat) : Completes ⟨none, world⟩ c k (attemptStart w c m k) (outcomeAt w world c m k) :=
  completes_none world c k (attemptStart w c m k)

theorem not_isRetried_resolution (client? : Option Client) : ¬IsRetried (resolution client?) := by
  rintro ⟨e, heq, he⟩
  cases client? with
  | some client => exact absurd heq (by simp [resolution])
  | none =>
    have hnone : e = .notConfigured := by simpa [resolution] using heq.symm
    rw [hnone] at he
    exact absurd he (by decide)

/-! ## One backend -/

/-- Behind attempts that fail comes the rest. -/
theorem connect_of_retried (position : Nat) (h : ∀ j < n, IsRetried (outcomeAt w world c m j)) :
    ∃ es, attempts position es = (List.range n).map (attemptStart w c m) ∧
      ∀ tries, w.connect ⟨none, world⟩ position c (tries + n) 0 m =
        let rest := w.connect ⟨none, world⟩ position c tries n (attemptStart w c m n)
        { rest with entries := es ++ rest.entries } := by
  induction n with
  | zero => exact ⟨[], rfl, fun tries => rfl⟩
  | succ n ih =>
    obtain ⟨es, hes, hconnect⟩ := ih fun j hj => h j (Nat.lt_succ_of_lt hj)
    obtain ⟨e, heq, he⟩ := h n (Nat.lt_succ_self n)
    have hcompletes := heq ▸ completes_outcomeAt w world c m n
    refine ⟨es ++ failureEntries w position c n (attemptStart w c m n) e, ?_, fun tries => ?_⟩
    · rw [attempts_append, hes, attempts_failureEntries, List.range_succ, List.map_append]
      rfl
    · rw [← Nat.succ_add_eq_add_succ, hconnect, connect_of_failed hcompletes he rfl]
      simp only [List.append_assoc]
      rfl

/-- A backend is resolved with as many attempts as it takes and gives the client of the last one. -/
theorem connect_of_resolves (position : Nat) (h : Resolves w world c m k client?)
    (htries : k < tries) :
    let p := w.connect ⟨none, world⟩ position c tries 0 m
    p.ending = .reached (attemptOver w c m k) ∧
      p.clients = client?.toList.map (fun client => { client with session := position }) ∧
      attempts position p.entries = (List.range (k + 1)).map (attemptStart w c m) := by
  intro p
  obtain ⟨es, hes, hconnect⟩ := connect_of_retried position h.retried
  have hcompletes := h.resolved ▸ completes_outcomeAt w world c m k
  obtain ⟨more, rfl⟩ : ∃ more, tries = more + 1 + k := ⟨tries - (k + 1), by omega⟩
  have hp : p = let last := lastAttempt w position c k (attemptStart w c m k) (resolution client?)
      { last with entries := es ++ last.entries } := by
    change w.connect ⟨none, world⟩ position c (more + 1 + k) 0 m = _
    rw [hconnect, connect_of_last hcompletes (not_isRetried_resolution client?)]
  rw [hp]
  refine ⟨?_, ?_, ?_⟩
  · cases client? <;> rfl
  · cases client? <;> rfl
  · rw [attempts_append, hes, List.range_succ, List.map_append]
    cases client? <;> simp [lastAttempt, resolution, attempts, Deed.attempted?]

/-- As long as attempts fail, as many are made as are told. -/
theorem connect_of_failing (position : Nat) (h : ∀ j, IsRetried (outcomeAt w world c m j))
    (tries : Nat) :
    let p := w.connect ⟨none, world⟩ position c tries 0 m
    (∃ time, p.ending = .pending time) ∧
      attempts position p.entries = (List.range tries).map (attemptStart w c m) := by
  intro p
  obtain ⟨es, hes, hconnect⟩ :=
    connect_of_retried position fun j (_ : j < tries) => h j
  have hp := hconnect 0
  rw [Nat.zero_add] at hp
  change p = _ at hp
  rw [hp]
  exact ⟨⟨_, rfl⟩, by simpa [Worker.connect] using hes⟩

/-! ## One backend after the other -/

/-- The clients with one session. -/
def clientsAt (position : Nat) (clients : List Client) : List Client :=
  clients.filter fun client => client.session = position

/-- Two parts of a life tell the same about the backend at a position. -/
structure Passage.AlikeAt (position : Nat) (p q : Passage) : Prop where
  attempts_eq : attempts position p.entries = attempts position q.entries
  clients_eq : clientsAt position p.clients = clientsAt position q.clients

theorem Passage.AlikeAt.trans {p q r : Passage} (h : p.AlikeAt position q)
    (h' : q.AlikeAt position r) : p.AlikeAt position r :=
  ⟨h.attempts_eq.trans h'.attempts_eq, h.clients_eq.trans h'.clients_eq⟩

theorem clientsAt_append (position : Nat) (xs ys : List Client) :
    clientsAt position (xs ++ ys) = clientsAt position xs ++ clientsAt position ys :=
  List.filter_append ..

theorem clientsAt_eq_nil {clients : List Client} (h : position ∉ clients.map Client.session) :
    clientsAt position clients = [] := by
  refine List.filter_eq_nil_iff.mpr fun client hclient heq => h ?_
  exact List.mem_map.mpr ⟨client, hclient, of_decide_eq_true heq⟩

theorem session_mem_of_connects {s : Surroundings} {before : Nat} {p : Passage}
    (h : Connects w s position c before m p) :
    ∀ i ∈ p.clients.map Client.session, i = position := by
  intro i hi
  rw [← h.obtained_eq] at hi
  exact List.mem_singleton.mp (h.obtained_sublist.subset hi)

/-- Backends that do not have a position leave it alone. -/
theorem connectAll_leaves (w : Worker) (world : Nat → World) (htries : 0 < tries)
    (hp : position ∉ cs.map Prod.snd) (m : Moment) :
    attempts position (w.connectAll ⟨none, world⟩ tries cs m).entries = [] ∧
      clientsAt position (w.connectAll ⟨none, world⟩ tries cs m).clients = [] := by
  have h := connectAll_connectsAll w ⟨none, world⟩ htries cs m
  refine ⟨h.attempts_eq_nil hp, clientsAt_eq_nil ?_⟩
  rw [← h.obtained_eq]
  exact h.notMem_obtained hp

/-- What is done about the first of some backends is done while it is connected. -/
theorem connectAll_at_head (w : Worker) (world : Nat → World) (htries : 0 < tries)
    (hp : position ∉ others.map Prod.snd) (c : Connector) (m : Moment) :
    (w.connectAll ⟨none, world⟩ tries ((c, position) :: others) m).AlikeAt position
      (w.connect ⟨none, world⟩ position c tries 0 m) := by
  rw [Worker.connectAll]
  dsimp only
  cases (w.connect ⟨none, world⟩ position c tries 0 m).ending with
  | reached m' =>
    obtain ⟨hattempts, hclients⟩ := connectAll_leaves w world htries hp m'
    constructor
    · rw [attempts_append, hattempts, List.append_nil]
    · rw [clientsAt_append, hclients, List.append_nil]
  | stopped | broken | pending => exact ⟨rfl, rfl⟩

/-- What is done about the backends behind the first one is done when it is resolved. -/
theorem connectAll_behind (others : List (Connector × Nat)) (h : Resolves w world c m k client?)
    (htries : k < tries) {other : Nat} (hne : position ≠ other) :
    (w.connectAll ⟨none, world⟩ tries ((c, position) :: others) m).AlikeAt other
      (w.connectAll ⟨none, world⟩ tries others (attemptOver w c m k)) := by
  have hfirst := connect_connects w ⟨none, world⟩ position c tries 0 m (.inr rfl)
  have hclients : clientsAt other (w.connect ⟨none, world⟩ position c tries 0 m).clients = [] :=
    clientsAt_eq_nil fun hmem => hne (session_mem_of_connects hfirst other hmem).symm
  obtain ⟨hend, -, -⟩ := connect_of_resolves position h htries
  rw [Worker.connectAll]
  dsimp only
  rw [hend]
  constructor
  · rw [attempts_append, hfirst.attempts_eq_nil hne, List.nil_append]
  · rw [clientsAt_append, hclients, List.nil_append]

theorem Reaches.suffix (h : Reaches w world cs m others m') : others <:+ cs := by
  induction h with
  | here => exact List.suffix_refl _
  | behind hfirst hrest ih => exact ih.trans (List.suffix_cons ..)

theorem Reaches.notMem_others (h : Reaches w world cs m ((c, position) :: others) m')
    (hnodup : (cs.map Prod.snd).Nodup) : position ∉ others.map Prod.snd := by
  have hcons := (h.suffix.map Prod.snd).sublist.nodup hnodup
  rw [List.map_cons, List.nodup_cons] at hcons
  exact hcons.1

/-- A backend that is resolved is followed by the one behind it. -/
theorem Reaches.step (h : Reaches w world cs m ((c, position) :: others) m')
    (hresolves : Resolves w world c m' k client?) :
    Reaches w world cs m others (attemptOver w c m' k) := by
  generalize hrest : (c, position) :: others = rest at h
  induction h with
  | here cs m =>
    subst hrest
    exact .behind hresolves (.here others _)
  | behind hfirst _ ih => exact .behind hfirst (ih hresolves hrest)

/-- What is done about backends that are come to does not depend on those in front of them. -/
theorem connectAll_of_reaches (h : Reaches w world cs m others m')
    (hnodup : (cs.map Prod.snd).Nodup) :
    ∃ enough, ∀ tries ≥ enough, ∀ other ∈ others.map Prod.snd,
      (w.connectAll ⟨none, world⟩ tries cs m).AlikeAt other
        (w.connectAll ⟨none, world⟩ tries others m') := by
  induction h with
  | here cs m => exact ⟨0, fun _ _ _ _ => ⟨rfl, rfl⟩⟩
  | @behind c position k others cs m m' client? hfirst hrest ih =>
    rw [List.map_cons, List.nodup_cons] at hnodup
    obtain ⟨enough, hall⟩ := ih hnodup.2
    refine ⟨max enough (k + 1), fun tries htries other hother => ?_⟩
    have hne : position ≠ other := fun heq =>
      hnodup.1 (heq ▸ (hrest.suffix.map Prod.snd).subset hother)
    have hk : k < tries := by omega
    exact (connectAll_behind others hfirst hk hne).trans (hall tries (by omega) other hother)

/-- What is done about a backend that is come to is done while it is connected. -/
theorem connectAll_at_reached (h : Reaches w world cs m ((c, position) :: others) m')
    (hnodup : (cs.map Prod.snd).Nodup) :
    ∃ enough, ∀ tries ≥ enough,
      (w.connectAll ⟨none, world⟩ tries cs m).AlikeAt position
        (w.connect ⟨none, world⟩ position c tries 0 m') := by
  obtain ⟨enough, hall⟩ := connectAll_of_reaches h hnodup
  refine ⟨max enough 1, fun tries htries => ?_⟩
  have hpos : 0 < tries := by omega
  exact (hall tries (by omega) position (by simp)).trans
    (connectAll_at_head w world hpos (h.notMem_others hnodup) c m')

/-- Nothing is done about backends behind one that always fails. -/
theorem attempts_behind_failing (h : Reaches w world cs m ((c, position) :: others) m')
    (hnodup : (cs.map Prod.snd).Nodup) (hfailing : ∀ j, IsRetried (outcomeAt w world c m' j)) :
    ∃ enough, ∀ tries ≥ enough, ∀ next ∈ others,
      attempts next.2 (w.connectAll ⟨none, world⟩ tries cs m).entries = [] := by
  obtain ⟨enough, hall⟩ := connectAll_of_reaches h hnodup
  have hbehind := h.notMem_others hnodup
  refine ⟨enough, fun tries htries next hnext => ?_⟩
  have hmem : next.2 ∈ others.map Prod.snd := List.mem_map_of_mem hnext
  have halike := hall tries htries next.2 (List.mem_cons_of_mem _ hmem)
  obtain ⟨⟨time, hend⟩, -⟩ := connect_of_failing position hfailing tries
  have hconnects := connect_connects w ⟨none, world⟩ position c tries 0 m' (.inr rfl)
  rw [halike.attempts_eq, Worker.connectAll]
  dsimp only
  rw [hend]
  exact hconnects.attempts_eq_nil fun heq => hbehind (heq ▸ hmem)

/-! ## The order of the attempts -/

/-- The positions of the backends on which attempts are begun, in the order of the attempts. -/
def tried (es : List Entry) : List Nat := es.filterMap fun e => e.deed.attempted?

theorem tried_eq_of_isConnecting {es : List Entry} (h : ∀ e ∈ es, e.deed.isConnecting position) :
    ∀ i ∈ tried es, i = position := by
  intro i hi
  obtain ⟨e, he, hd⟩ := List.mem_filterMap.mp hi
  by_contra hne
  exact Deed.attempted?_of_isConnecting (h e he) (Ne.symm hne) hd

/-- Backends are tried in their order. -/
theorem ConnectsAll.pairwise_tried {s : Surroundings} {p : Passage} (h : ConnectsAll w s cs m p)
    (hcs : (cs.map Prod.snd).Pairwise (· < ·)) : (tried p.entries).Pairwise (· ≤ ·) := by
  -- all attempts on one backend have its position
  have hone : ∀ {es : List Entry} {position : Nat},
      (∀ e ∈ es, e.deed.isConnecting position) → (tried es).Pairwise (· ≤ ·) := by
    intro es position hes
    have heq := tried_eq_of_isConnecting hes
    refine List.pairwise_of_forall_mem_list fun i hi j hj => ?_
    exact Nat.le_of_eq ((heq i hi).trans (heq j hj).symm)
  induction h with
  | done => exact List.Pairwise.nil
  | @next c position others m m' first rest hfirst hend hrest ih =>
    rw [List.map_cons, List.pairwise_cons] at hcs
    rw [tried, List.filterMap_append]
    refine List.pairwise_append.mpr ⟨hone hfirst.isConnecting, ih hcs.2, fun i hi j hj => ?_⟩
    obtain rfl := tried_eq_of_isConnecting hfirst.isConnecting i hi
    obtain ⟨e, he, hd⟩ := List.mem_filterMap.mp hj
    obtain ⟨c', hc', hconnecting⟩ := hrest.isConnecting e he
    have hj : j = c'.2 := tried_eq_of_isConnecting (List.forall_mem_singleton.mpr hconnecting) j
      (by simp [tried, hd])
    exact Nat.le_of_lt (hj ▸ hcs.1 c'.2 (List.mem_map_of_mem hc'))
  | last hfirst hend => exact hone hfirst.isConnecting

/-! ## The attempts in a life -/

theorem pairwise_positions (w : Worker) : (w.connectors.zipIdx.map Prod.snd).Pairwise (· < ·) := by
  rw [List.zipIdx_map_snd, ← List.range_eq_range']
  exact List.pairwise_lt_range

theorem nodup_positions (w : Worker) : (w.connectors.zipIdx.map Prod.snd).Nodup :=
  (pairwise_positions w).imp fun h => Nat.ne_of_lt h

theorem Phases.tried_eq {s : Surroundings} {life connecting work : Passage}
    (h : Phases w s life connecting work) : tried life.entries = tried connecting.entries := by
  have hwork : tried work.entries = [] := List.filterMap_eq_nil_iff.mpr fun a ha =>
    Deed.attempted?_of_isWorking (h.works.isWorking a ha)
  have hleave : tried (leave w connecting.clients work.ending) = [] :=
    List.filterMap_eq_nil_iff.mpr fun a ha =>
      Deed.attempted?_of_isLeaving (isLeaving_of_mem_leave ha)
  unfold tried at *
  rw [h.entries, List.filterMap_cons, List.filterMap_append, List.filterMap_append, hwork, hleave]
  simp [announced, Deed.attempted?]

/-- Enough attempts are told if the life of a worker is told for long enough. -/
theorem exists_le_triesWithin (w : Worker) (n : Nat) :
    ∃ enough, ∀ horizon ≥ enough, n ≤ w.triesWithin horizon := by
  refine ⟨n * max w.retryDelay 1, fun horizon hle => ?_⟩
  have hdiv : n ≤ horizon / max w.retryDelay 1 :=
    (Nat.le_div_iff_mul_le (Nat.lt_of_lt_of_le Nat.zero_lt_one (Nat.le_max_right _ _))).mpr hle
  exact Nat.le_trans hdiv (Nat.le_add_right _ _)

/-- What is done about a backend in a life that is told for long enough is done while it is
    connected. -/
theorem life_at_reached (h : Reaches w world w.connectors.zipIdx {} ((c, position) :: others) m)
    (n : Nat) :
    ∃ enough, ∀ horizon ≥ enough, ∃ tries ≥ n,
      (w.life ⟨none, world⟩ horizon).AlikeAt position
        (w.connect ⟨none, world⟩ position c tries 0 m) := by
  obtain ⟨least, hall⟩ := connectAll_at_reached h (nodup_positions w)
  obtain ⟨enough, htries⟩ := exists_le_triesWithin w (max least n)
  refine ⟨enough, fun horizon hle => ⟨w.triesWithin horizon, ?_, ?_⟩⟩
  · exact Nat.le_trans (Nat.le_max_right _ _) (htries horizon hle)
  · obtain ⟨work, hphases⟩ := exists_work w ⟨none, world⟩ horizon
    have hconnecting : (w.life ⟨none, world⟩ horizon).AlikeAt position _ :=
      ⟨hphases.attempts_eq position, congrArg (clientsAt position) (clients_life w _ horizon)⟩
    exact hconnecting.trans (hall _ (Nat.le_trans (Nat.le_max_left _ _) (htries horizon hle)))

/-- The first attempt on a backend begins when it is come to. -/
theorem head?_attempts_of_reaches
    (h : Reaches w world w.connectors.zipIdx {} ((c, position) :: others) m) :
    ∃ enough, ∀ horizon ≥ enough,
      (attempts position (w.life ⟨none, world⟩ horizon).entries).head? = some m := by
  obtain ⟨enough, hlife⟩ := life_at_reached h 1
  refine ⟨enough, fun horizon hle => ?_⟩
  obtain ⟨tries, htries, hattempts, -⟩ := hlife horizon hle
  obtain ⟨more, rfl⟩ : ∃ more, tries = more + 1 := ⟨tries - 1, by omega⟩
  obtain ⟨-, rest, hentries, -⟩ := exists_connect_none w world position c more 0 m
  rw [hattempts, hentries, attempts_append]
  simp [attempts_cons, Deed.attempted?]

/-- A backend is resolved in a life that is told for long enough. -/
theorem life_of_resolves (h : Reaches w world w.connectors.zipIdx {} ((c, position) :: others) m)
    (hresolves : Resolves w world c m k client?) :
    ∃ enough, ∀ horizon ≥ enough,
      let life := w.life ⟨none, world⟩ horizon
      attempts position life.entries = (List.range (k + 1)).map (attemptStart w c m) ∧
        clientsAt position life.clients =
          client?.toList.map (fun client => { client with session := position }) ∧
        ∀ next ∈ others.head?,
          (attempts next.2 life.entries).head? = some (attemptOver w c m k) := by
  have hnext : ∃ enough, ∀ horizon ≥ enough, ∀ next ∈ others.head?,
      (attempts next.2 (w.life ⟨none, world⟩ horizon).entries).head? =
        some (attemptOver w c m k) := by
    cases others with
    | nil => exact ⟨0, by simp⟩
    | cons next others =>
      obtain ⟨enough, hfirst⟩ := head?_attempts_of_reaches (h.step hresolves)
      exact ⟨enough, fun horizon hle next hmem => by cases hmem; exact hfirst horizon hle⟩
  obtain ⟨enough, hlife⟩ := life_at_reached h (k + 1)
  obtain ⟨enough', hnext⟩ := hnext
  refine ⟨max enough enough', fun horizon hle => ?_⟩
  obtain ⟨tries, htries, hattempts, hclients⟩ := hlife horizon (by omega)
  obtain ⟨-, hclients', hattempts'⟩ := connect_of_resolves position hresolves htries
  refine ⟨hattempts.trans hattempts', hclients.trans ?_, hnext horizon (by omega)⟩
  rw [hclients']
  exact List.filter_eq_self.mpr (by simp)

/-- A backend that always fails is tried for ever, and none behind it. -/
theorem life_of_failing (h : Reaches w world w.connectors.zipIdx {} ((c, position) :: others) m)
    (hfailing : ∀ j, IsRetried (outcomeAt w world c m j)) (n : Nat) :
    ∃ enough, ∀ horizon ≥ enough,
      let life := w.life ⟨none, world⟩ horizon
      (∃ tries ≥ n,
        attempts position life.entries = (List.range tries).map (attemptStart w c m)) ∧
      ∀ next ∈ others, attempts next.2 life.entries = [] := by
  obtain ⟨enough, hlife⟩ := life_at_reached h n
  obtain ⟨least, hbehind⟩ := attempts_behind_failing h (nodup_positions w) hfailing
  obtain ⟨enough', htries⟩ := exists_le_triesWithin w least
  refine ⟨max enough enough', fun horizon hle => ⟨?_, fun next hnext => ?_⟩⟩
  · obtain ⟨tries, hn, hattempts, -⟩ := hlife horizon (by omega)
    exact ⟨tries, hn, hattempts.trans (connect_of_failing position hfailing tries).2⟩
  · obtain ⟨work, hphases⟩ := exists_work w ⟨none, world⟩ horizon
    rw [hphases.attempts_eq]
    exact hbehind _ (htries horizon (by omega)) next hnext

/-- The attempts of a worker that is not asked to stop. Its backends are the environment, the file
    and the added ones, and it tries them in this order. A failed attempt is repeated when the pause
    is over, which is always the same. A backend that is resolved behind `k` failed attempts takes
    one more attempt and gives the client of that, if there is one; the first attempt on the next
    backend begins at that moment. A backend that always fails is tried for ever, and none behind
    it. -/
theorem Supervisor.worker_retries (s : Supervisor) (job : Job) (position : Nat)
    (world : Nat → World) :
    let w := s.worker job position
    let life := w.life ⟨none, world⟩
    (∃ env file, w.connectors = env :: file :: job.added ∧
      env.name = Backend.EnvironmentStore.kind ∧ file.name = Backend.FileStore.kind) ∧
    (∀ horizon, (tried (life horizon).entries).Pairwise (· ≤ ·)) ∧
    (∀ c m j, (attemptStart w c m (j + 1)).time =
      (attemptOver w c m j).time + s.settings.retryDelay) ∧
    ∀ c i others m, Reaches w world w.connectors.zipIdx {} ((c, i) :: others) m →
      (∀ k client?, Resolves w world c m k client? → ∃ enough, ∀ horizon ≥ enough,
        attempts i (life horizon).entries = (List.range (k + 1)).map (attemptStart w c m) ∧
        clientsAt i (life horizon).clients =
          client?.toList.map (fun client => { client with session := i }) ∧
        ∀ next ∈ others.head?,
          (attempts next.2 (life horizon).entries).head? = some (attemptOver w c m k)) ∧
      ((∀ j, IsRetried (outcomeAt w world c m j)) → ∀ n, ∃ enough, ∀ horizon ≥ enough,
        (∃ tries ≥ n,
          attempts i (life horizon).entries = (List.range tries).map (attemptStart w c m)) ∧
        ∀ next ∈ others, attempts next.2 (life horizon).entries = []) := by
  intro w life
  refine ⟨s.connectors_worker job position, fun horizon => ?_, time_attemptStart_succ w,
    fun c i others m hreach =>
      ⟨fun k client? hresolves => life_of_resolves hreach hresolves, life_of_failing hreach⟩⟩
  obtain ⟨work, hphases⟩ := exists_work w ⟨none, world⟩ horizon
  change (tried (w.life ⟨none, world⟩ horizon).entries).Pairwise (· ≤ ·)
  rw [hphases.tried_eq]
  exact hphases.connects.pairwise_tried (pairwise_positions w)

/-- A backend whose attempts take 30 milliseconds each; the third one succeeds. -/
def thirdTime : Connector where
  name := "flaky"
  attempt k :=
    { delay := .sleep 30
      outcome := fun _ =>
        if k < 2 then .failed (.failed "flaky" "refused")
        else .connected { name := "flaky", lookup := .fixed [] } }

/-- A job with a backend that is connected with the third attempt. -/
def Job.flaky : Job := { resource := {}, added := [thirdTime] }

/-- A supervisor whose workers pause for half a second. -/
def Supervisor.brisk : Supervisor := start { retryDelay := 500 } (fun _ _ _ => .broken) []

/-- A backend that was added is connected with the third attempt. -/
theorem Supervisor.worker_retries_thirdTime :
    ∃ enough, ∀ horizon ≥ enough,
      let life := (brisk.worker .flaky 0).life ⟨none, fun _ => {}⟩ horizon
      attempts 2 life.entries = [{}, ⟨530, 2⟩, ⟨1060, 4⟩] ∧
        (clientsAt 2 life.clients).map Client.name = ["flaky"] := by
  obtain ⟨-, -, -, hretries⟩ := brisk.worker_retries .flaky 0 fun _ => {}
  -- the environment and the file are not configured
  have hskipped (kind : String) : Resolves (brisk.worker .flaky 0) (fun _ => {})
      (.unconfigured kind) {} 0 none := ⟨by simp, rfl⟩
  have hreaches : Reaches (brisk.worker .flaky 0) (fun _ => {})
      (brisk.worker .flaky 0).connectors.zipIdx {} [(thirdTime, 2)] {} :=
    .behind (hskipped _) (.behind (hskipped _) (.here _ _))
  have hresolves : Resolves (brisk.worker .flaky 0) (fun _ => {}) thirdTime {} 2
      (some { name := "flaky", lookup := .fixed [] }) :=
    ⟨fun j hj => ⟨.failed "flaky" "refused", if_pos hj, rfl⟩, rfl⟩
  obtain ⟨enough, hlife⟩ := (hretries _ _ _ _ hreaches).1 _ _ hresolves
  refine ⟨enough, fun horizon hle => ?_⟩
  obtain ⟨hattempts, hclients, -⟩ := hlife horizon hle
  exact ⟨hattempts.trans rfl, by rw [hclients]; rfl⟩

end Steward.Supervision
