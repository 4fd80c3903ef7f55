import Steward.Proofs.Supervision.Retries
import Steward.Proofs.Supervision.Shutdown

/-!
# Building the resource

A worker has its resource built once at most, and it does so exactly if each of its backends was
resolved: connected, or found not to be configured. The resource is built from the clients of the
backends that were connected, in the order of the backends. None of their sessions is closed by
then, and they stay open until the monitor has come to its end.

Results:
* `ConnectsAll.reached_iff`, `ConnectsAll.exists_found`: connecting is complete when all backends
  are resolved, and what it gives then.
* `Phases.split_of_build`: the resource is built right behind connecting.
* `life_buildsFromAll`: how a worker has its resource built.
* `Supervisor.run_builds`: the same for each worker of a run.
-/

namespace Steward.Supervision

open Backend (Client Connector ConnectOutcome)

/-! ## Building, told by deeds -/

/-- The clients from which a deed has the resource built. -/
def Deed.builtFrom? : Deed → Option (List Client)
  | build clients _ => some clients
  | _ => none

/-- The clients from which the resource is built, each time that it is. -/
def builds (es : List Entry) : List (List Client) := es.filterMap fun e => e.deed.builtFrom?

/-- A backend at a position was resolved: an attempt on it was completed before the worker was asked
    to stop, and it ended with a client or with the finding that there is nothing to connect to. -/
def IsResolved (s : Surroundings) (es : List Entry) (c : Connector × Nat)
    (client? : Option Client) : Prop :=
  ∃ k m, (attempts c.2 es)[k]? = some m ∧ Completes s c.1 k m (resolution client?)

/-- The clients that backends at positions give, in their order. The session of each is known by the
    position of its backend. -/
def clientsFrom (cs : List (Connector × Nat)) (found : List (Option Client)) : List Client :=
  (cs.zip found).filterMap fun r => r.2.map fun client => { client with session := r.1.2 }

/-- The event that tells what has become of building the resource; there is none if the builder
    breaks down. -/
def buildEvents (w : Worker) (clients : List Client) : List Event :=
  match w.factory w.name clients w.templates with
  | .built _ => [w.event .resourceWatching]
  | .refused e => [buildFailed w e]
  | .broken => []

/-- True if an event tells what has become of building a resource. -/
def tellsBuild (e : Event) : Bool := e.kind = .resourceWatching || e.kind = .resourceBuildFailed

/-- How a worker has its resource built in a life. -/
structure BuildsFromAll (w : Worker) (s : Surroundings) (life : Passage) : Prop where
  /-- The resource is built once at most. -/
  once : (builds life.entries).length ≤ 1
  /-- It is built exactly if all backends are resolved. -/
  built_iff : builds life.entries ≠ [] ↔
    ∀ c ∈ w.connectors.zipIdx, ∃ client?, IsResolved s life.entries c client?
  /-- It is built from the clients that the backends have given by then, which are all that was
      obtained, and from the templates. No session is closed before. -/
  receives : ∀ pre a post clients templates, life.entries = pre ++ a :: post →
    a.deed = .build clients templates →
      templates = w.templates ∧ obtained pre = clients.map Client.session ∧ closed pre = [] ∧
      ∃ found, List.Forall₂ (IsResolved s pre) w.connectors.zipIdx found ∧
        clients = clientsFrom w.connectors.zipIdx found
  /-- A session is closed behind the building only, and behind the end of the monitor if there is
      one. -/
  stays_open : ∀ pre a post, life.entries = pre ++ a :: post → a.deed.closed?.isSome →
    builds pre = builds life.entries ∧
      ∀ b ∈ life.entries, (∃ stopped, b.deed = .watch stopped) → ∃ d ∈ pre, d.deed = .dismiss
  /-- The end of a monitor is that it has come to its end, or that it breaks down. -/
  dismissed : ∀ pre d post, life.entries = pre ++ d :: post → d.deed = .dismiss →
    (∃ b ∈ pre, b.deed = .watched) ∨ ∃ m, life.ending = .broken m
  /-- A monitor begins exactly if the resource was built. -/
  watches_iff : (∃ a ∈ life.entries, ∃ stopped, a.deed = .watch stopped) ↔
    ∃ clients ∈ builds life.entries, ∃ monitor,
      w.factory w.name clients w.templates = .built monitor
  /-- What has become of building is told, and nothing else about it. -/
  told : (events life.entries).filter tellsBuild = (builds life.entries).flatMap (buildEvents w)

variable {w : Worker} {s : Surroundings} {c : Connector} {position before : Nat} {m m' : Moment}
  {p : Passage} {cs : List (Connector × Nat)} {es fs : List Entry} {clients : List Client}

@[simp] theorem builds_nil : builds [] = [] := rfl

@[simp] theorem builds_append : builds (es ++ fs) = builds es ++ builds fs := List.filterMap_append

theorem builds_cons {e : Entry} : builds (e :: es) = e.deed.builtFrom?.toList ++ builds es := by
  unfold builds
  cases h : e.deed.builtFrom? <;> simp [h]

theorem builds_eq_nil (h : ∀ e ∈ es, e.deed.builtFrom? = none) : builds es = [] :=
  List.filterMap_eq_nil_iff.mpr h

theorem Deed.builtFrom?_of_isConnecting {d : Deed} (h : d.isConnecting position) :
    d.builtFrom? = none := by
  cases d <;> simp_all [isConnecting, builtFrom?]

theorem Deed.builtFrom?_of_isLeaving {d : Deed} (h : d.isLeaving) : d.builtFrom? = none := by
  cases d <;> simp_all [isLeaving, builtFrom?]

/-! ## One backend -/

/-- An end of an attempt that resolves a backend is no other end. -/
theorem resolution_ne {client? : Option Client} :
    resolution client? ≠ .broken ∧
      ∀ e, e ≠ .notConfigured → resolution client? ≠ .failed e := by
  cases client? with
  | none => simp [resolution, eq_comm]
  | some client => simp [resolution]

/-- A backend that is connected to the end was resolved by one of the attempts, and gives the client
    of that. -/
theorem Connects.exists_resolution (h : Connects w s position c before m p)
    (hend : p.ending = .reached m') :
    ∃ k mk client?, (attempts position p.entries)[k]? = some mk ∧
      Completes s c (before + k) mk (resolution client?) ∧
      p.clients = client?.toList.map fun client => { client with session := position } := by
  induction h with
  | untold | asked | cutOff | broken | pausing => simp at hend
  | @connected before m client h =>
    exact ⟨0, m, some client, by simp [attempts, Deed.attempted?], h, rfl⟩
  | @skipped before m h => exact ⟨0, m, none, by simp [attempts, Deed.attempted?], h, rfl⟩
  | again h he hs hrest ih =>
    -- the attempts behind the first one
    obtain ⟨k, mk, client?, hk, hc, hclients⟩ := ih hend
    refine ⟨k + 1, mk, client?, ?_, ?_, hclients⟩
    · simpa using hk
    · rwa [Nat.add_assoc, Nat.add_comm 1] at hc

/-- A backend that was resolved by one of the attempts is connected to the end. -/
theorem Connects.reached_of_resolved (h : Connects w s position c before m p)
    (hres : ∃ k mk, (attempts position p.entries)[k]? = some mk ∧
      ∃ client?, Completes s c (before + k) mk (resolution client?)) :
    ∃ m', p.ending = .reached m' := by
  induction h with
  | untold | asked => simp at hres
  | @cutOff before m begun h =>
    obtain ⟨client?, hc⟩ : ∃ client?, Completes s c before m (resolution client?) := by
      simpa [attempts, Deed.attempted?, exists_getElem?_cons_iff] using hres
    rw [hc.inTime] at h
    exact absurd h (by simp)
  | connected | skipped => exact ⟨_, rfl⟩
  | @broken before m h =>
    obtain ⟨client?, hc⟩ : ∃ client?, Completes s c before m (resolution client?) := by
      simpa [attempts, Deed.attempted?, exists_getElem?_cons_iff] using hres
    exact absurd (hc.unique h) resolution_ne.1
  | @pausing before m e h he hs =>
    obtain ⟨client?, hc⟩ : ∃ client?, Completes s c before m (resolution client?) := by
      simpa [exists_getElem?_cons_iff] using hres
    exact absurd (hc.unique h) (resolution_ne.2 e he)
  | @again before m e rest h he hs hrest ih =>
    rw [attempts_append, attempts_failureEntries, List.singleton_append,
      exists_getElem?_cons_iff] at hres
    rcases hres with ⟨client?, hc⟩ | ⟨k, mk, hk, client?, hc⟩
    · exact absurd (hc.unique h) (resolution_ne.2 e he)
    · rw [Nat.add_comm k, ← Nat.add_assoc] at hc
      exact ih ⟨k, mk, hk, client?, hc⟩

/-! ## All backends -/

theorem IsResolved.congr {cp : Connector × Nat} {client? : Option Client}
    (h : IsResolved s es cp client?) (heq : attempts cp.2 fs = attempts cp.2 es) :
    IsResolved s fs cp client? := by
  unfold IsResolved
  rwa [heq]

theorem position_ne_of_notMem (h : position ∉ cs.map Prod.snd) : ∀ cp ∈ cs, position ≠ cp.2 := by
  intro cp hcp heq
  exact h (List.mem_map.mpr ⟨cp, hcp, heq.symm⟩)

/-- What is done about the first of some backends is done before the others are come to. -/
theorem ConnectsAll.attempts_first {rest : Passage} {others : List (Connector × Nat)}
    (hrest : ConnectsAll w s others m' rest) (hp : position ∉ others.map Prod.snd)
    (es : List Entry) : attempts position (es ++ rest.entries) = attempts position es := by
  rw [attempts_append, hrest.attempts_eq_nil hp, List.append_nil]

/-- What is done about the others is done behind the first one. -/
theorem Connects.attempts_others {first : Passage} (hfirst : Connects w s position c 0 m first)
    {other : Nat} (hne : position ≠ other) (es : List Entry) :
    attempts other (first.entries ++ es) = attempts other es := by
  rw [attempts_append, hfirst.attempts_eq_nil hne, List.nil_append]

/-- When all backends are connected to the end, each of them was resolved, and the clients are those
    that they have given. -/
theorem ConnectsAll.exists_found (h : ConnectsAll w s cs m p) (hcs : (cs.map Prod.snd).Nodup)
    (hend : p.ending = .reached m') :
    ∃ found, List.Forall₂ (IsResolved s p.entries) cs found ∧ p.clients = clientsFrom cs found := by
  induction h with
  | done => exact ⟨[], .nil, rfl⟩
  | @next c position others m m'' first rest hfirst hfirstEnd hrest ih =>
    rw [List.map_cons, List.nodup_cons] at hcs
    obtain ⟨found, hfound, hclients⟩ := ih hcs.2 hend
    obtain ⟨k, mk, client?, hk, hc, hfirstClients⟩ := hfirst.exists_resolution hfirstEnd
    rw [Nat.zero_add] at hc
    refine ⟨client? :: found, .cons ?_ ?_, ?_⟩
    · exact IsResolved.congr ⟨k, mk, hk, hc⟩ (hrest.attempts_first hcs.1 _)
    · have hothers := (List.forall₂_and_left _ _).mpr ⟨position_ne_of_notMem hcs.1, hfound⟩
      exact hothers.imp fun other client? ⟨hne, hres⟩ =>
        hres.congr (hfirst.attempts_others hne _)
    · rw [hfirstClients, hclients]
      cases client? <;> rfl
  | last hfirst hfirstEnd => exact absurd hend (hfirstEnd _)

/-- When all backends are resolved, connecting them is complete. -/
theorem ConnectsAll.reached_of_resolved (h : ConnectsAll w s cs m p)
    (hcs : (cs.map Prod.snd).Nodup)
    (hall : ∀ cp ∈ cs, ∃ client?, IsResolved s p.entries cp client?) :
    ∃ m', p.ending = .reached m' := by
  induction h with
  | done m => exact ⟨m, rfl⟩
  | @next c position others m m'' first rest hfirst hfirstEnd hrest ih =>
    rw [List.map_cons, List.nodup_cons] at hcs
    refine ih hcs.2 fun other hother => ?_
    obtain ⟨client?, hres⟩ := hall other (List.mem_cons_of_mem _ hother)
    have hne : position ≠ other.2 := position_ne_of_notMem hcs.1 other hother
    exact ⟨client?, hres.congr (hfirst.attempts_others hne _).symm⟩
  | @last c position others m first hfirst hfirstEnd =>
    obtain ⟨client?, k, mk, hk, hc⟩ := hall (c, position) List.mem_cons_self
    exact hfirst.reached_of_resolved ⟨k, mk, hk, client?, by rwa [Nat.zero_add]⟩

/-- Connecting is complete exactly if all backends are resolved. -/
theorem ConnectsAll.reached_iff (h : ConnectsAll w s cs m p) (hcs : (cs.map Prod.snd).Nodup) :
    (∃ m', p.ending = .reached m') ↔
      ∀ cp ∈ cs, ∃ client?, IsResolved s p.entries cp client? := by
  refine ⟨fun ⟨m', hend⟩ cp hcp => ?_, h.reached_of_resolved hcs⟩
  obtain ⟨found, hfound, -⟩ := h.exists_found hcs hend
  obtain ⟨i, hi, rfl⟩ := List.mem_iff_getElem.mp hcp
  obtain ⟨hlength, hget⟩ := List.forall₂_iff_get.mp hfound
  exact ⟨_, hget i hi (hlength ▸ hi)⟩

/-! ## The phases of a life -/

variable {life connecting work : Passage} {a : Entry} {pre post : List Entry}
  {templates : List Config.Template}

/-- Work begins with building. -/
theorem Works.exists_build (h : Works w s clients (.reached m) work) :
    ∃ rest, work.entries = ⟨m, .build clients w.templates⟩ :: rest ∧ builds rest = [] := by
  have hreadings : ∀ {readings : List Entry}, AreReadings readings → builds readings = [] := by
    intro readings hread
    refine builds_eq_nil fun e he => ?_
    obtain ⟨answers, hd⟩ := hread e he
    rw [hd]
    rfl
  cases h with
  | idle h => exact absurd rfl (h m)
  | refused | broken => exact ⟨_, rfl, rfl⟩
  | endless horizon hstop hread hord =>
    exact ⟨_, rfl, by simp [builds_cons, Deed.builtFrom?, hreadings hread]⟩
  | watched hread hord | collapsed hread hord =>
    exact ⟨_, rfl, by simp [builds_cons, Deed.builtFrom?, hreadings hread]⟩

/-- Only work has the resource built. -/
theorem Phases.builds_eq (h : Phases w s life connecting work) :
    builds life.entries = builds work.entries := by
  have hconnecting : builds connecting.entries = [] := builds_eq_nil fun a ha => by
    obtain ⟨c, -, hc⟩ := h.connects.isConnecting a ha
    exact Deed.builtFrom?_of_isConnecting hc
  have hleave : builds (leave w connecting.clients work.ending) = [] :=
    builds_eq_nil fun a ha => Deed.builtFrom?_of_isLeaving (isLeaving_of_mem_leave ha)
  rw [h.entries, builds_cons, builds_append, builds_append, hconnecting, hleave]
  simp [announced, Deed.builtFrom?]

theorem Phases.builds_of_reached (h : Phases w s life connecting work)
    (hend : connecting.ending = .reached m) : builds life.entries = [connecting.clients] := by
  have hworks := h.works
  rw [hend] at hworks
  obtain ⟨rest, hentries, hrest⟩ := hworks.exists_build
  rw [h.builds_eq, hentries, builds_cons, hrest]
  rfl

theorem Phases.builds_of_not_reached (h : Phases w s life connecting work)
    (hend : ∀ m, connecting.ending ≠ .reached m) : builds life.entries = [] := by
  rw [h.builds_eq, h.works.eq_idle hend]
  rfl

/-- The resource is built exactly if connecting is complete. -/
theorem Phases.builds_ne_nil_iff (h : Phases w s life connecting work) :
    builds life.entries ≠ [] ↔ ∃ m, connecting.ending = .reached m := by
  by_cases hend : ∃ m, connecting.ending = .reached m
  · obtain ⟨m, hm⟩ := hend
    simp [h.builds_of_reached hm, hm]
  · have hno : ∀ m, connecting.ending ≠ .reached m := fun m hm => hend ⟨m, hm⟩
    simp [h.builds_of_not_reached hno, hno]

/-- It is built right behind connecting, from what that has given. -/
theorem Phases.split_of_build (h : Phases w s life connecting work)
    (hsplit : life.entries = pre ++ a :: post) (hd : a.deed = .build clients templates) :
    (∃ m, connecting.ending = .reached m) ∧ pre = announced w :: connecting.entries ∧
      clients = connecting.clients ∧ templates = w.templates := by
  have hbuilds : builds life.entries ≠ [] := by
    rw [hsplit, builds_append, builds_cons, hd]
    simp [Deed.builtFrom?]
  obtain ⟨m, hend⟩ := h.builds_ne_nil_iff.mp hbuilds
  have hworks := h.works
  rw [hend] at hworks
  obtain ⟨rest, hentries, hrest⟩ := hworks.exists_build
  have hno : ∀ {es : List Entry}, builds es = [] →
      ∀ e ∈ es, e.deed.builtFrom?.isSome = false := by
    intro es hes e he
    rw [List.filterMap_eq_nil_iff.mp hes e he]
    rfl
  have hfront : builds (announced w :: connecting.entries) = [] :=
    builds_eq_nil fun e he => by
      rcases List.mem_cons.mp he with rfl | he
      · rfl
      · obtain ⟨c, -, hc⟩ := h.connects.isConnecting e he
        exact Deed.builtFrom?_of_isConnecting hc
  have hback : builds (rest ++ leave w connecting.clients work.ending) = [] := by
    rw [builds_append, hrest, List.nil_append]
    exact builds_eq_nil fun e he => Deed.builtFrom?_of_isLeaving (isLeaving_of_mem_leave he)
  rw [h.entries, hentries, List.append_assoc, List.cons_append, ← List.cons_append] at hsplit
  obtain ⟨hpre, -⟩ := eq_of_split (P := fun e => e.deed.builtFrom?.isSome) hsplit
    (by simp [hd, Deed.builtFrom?]) (hno hfront) (hno hback)
  rw [hpre] at hsplit
  have ha : a = ⟨m, .build connecting.clients w.templates⟩ :=
    (List.cons.inj (List.append_cancel_left hsplit)).1.symm
  rw [ha] at hd
  obtain ⟨hclients, htemplates⟩ := Deed.build.inj hd
  exact ⟨⟨m, hend⟩, hpre.symm, hclients.symm, htemplates.symm⟩

/-- What belongs neither to connecting nor to taking leave belongs to work. -/
theorem Phases.mem_work (h : Phases w s life connecting work) (ha : a ∈ life.entries)
    (hc : ∀ position, a.deed.isConnecting position = false) (hl : a.deed.isLeaving = false) :
    a ∈ work.entries := by
  rw [h.entries, List.mem_cons, List.mem_append, List.mem_append] at ha
  rcases ha with rfl | (ha | ha) | ha
  · exact absurd (hc 0) (by simp [announced, Deed.isConnecting])
  · obtain ⟨c, -, hconnecting⟩ := h.connects.isConnecting a ha
    exact absurd hconnecting (by simp [hc])
  · exact ha
  · exact absurd (isLeaving_of_mem_leave ha) (by simp [hl])

/-! ## The end of the monitor -/

/-- True if a deed gives up the monitor. -/
def Deed.dismisses : Deed → Bool
  | dismiss => true
  | _ => false

theorem Deed.dismisses_iff {d : Deed} : d.dismisses = true ↔ d = .dismiss := by
  cases d <;> simp [dismisses]

theorem Deed.dismisses_of_isConnecting {d : Deed} (h : d.isConnecting position) :
    d.dismisses = false := by
  cases d <;> simp_all [isConnecting, dismisses]

theorem Deed.dismisses_of_isLeaving {d : Deed} (h : d.isLeaving) : d.dismisses = false := by
  cases d <;> simp_all [isLeaving, dismisses]

/-- A monitor that begins is given up, unless the work goes on for longer than it is told. -/
theorem Works.exists_dismiss {e : Ending} (h : Works w s clients e work)
    (htold : work.ending.told? = none) {stopped : Bool} (ha : a ∈ work.entries)
    (hd : a.deed = .watch stopped) : ∃ d ∈ work.entries, d.deed = .dismiss := by
  cases h with
  | idle => simp at ha
  | refused =>
    rcases List.mem_pair.mp ha with rfl | rfl <;> simp at hd
  | broken =>
    rw [List.mem_singleton.mp ha] at hd
    simp at hd
  | endless => simp [Ending.told?] at htold
  | @watched m done readings hread hord => exact ⟨⟨done, .dismiss⟩, by simp, rfl⟩
  | @collapsed m done readings hread hord => exact ⟨⟨done, .dismiss⟩, by simp, rfl⟩

theorem dismisses_of_mem_watchEntries {readings : List Entry} (hread : AreReadings readings) :
    ∀ e ∈ watchEntries w s clients m readings, e.deed.dismisses = false := by
  intro e he
  simp only [watchEntries, List.mem_cons] at he
  rcases he with rfl | rfl | rfl | he
  · rfl
  · rfl
  · rfl
  · obtain ⟨answers, hd⟩ := hread e he
    rw [hd]
    rfl

/-- A monitor is given up last of all work, when it has come to its end or because it breaks
    down. -/
theorem Works.split_of_dismiss {e : Ending} (h : Works w s clients e work)
    (ha : a ∈ work.entries) (hd : a.deed = .dismiss) :
    ∃ front, work.entries = front ++ [a] ∧ (∀ b ∈ front, b.deed.dismisses = false) ∧
      ((∃ b ∈ front, b.deed = .watched) ∨ ∃ m, work.ending = .broken m) := by
  have hdismisses : a.deed.dismisses = true := Deed.dismisses_iff.mpr hd
  cases h with
  | idle => simp at ha
  | refused =>
    rcases List.mem_pair.mp ha with rfl | rfl <;> simp at hd
  | broken =>
    rw [List.mem_singleton.mp ha] at hd
    simp at hd
  | endless horizon hstop hread hord =>
    rw [dismisses_of_mem_watchEntries hread a ha] at hdismisses
    exact absurd hdismisses (by simp)
  | @collapsed m done readings hread hord =>
    have hfront : ∀ b ∈ watchEntries w s clients m readings, b.deed.dismisses = false :=
      dismisses_of_mem_watchEntries hread
    rcases List.mem_append.mp ha with ha | ha
    · rw [hfront a ha] at hdismisses
      exact absurd hdismisses (by simp)
    · rw [List.mem_singleton.mp ha]
      exact ⟨_, rfl, hfront, .inr ⟨done, rfl⟩⟩
  | @watched m done readings hread hord =>
    have hfront : ∀ b ∈ watchEntries w s clients m readings ++ [⟨done, .watched⟩],
        b.deed.dismisses = false :=
      List.forall_mem_append.mpr ⟨dismisses_of_mem_watchEntries hread, by simp [Deed.dismisses]⟩
    have hentries : watchEntries w s clients m readings ++
        [⟨done, .watched⟩, ⟨done, .dismiss⟩] =
        watchEntries w s clients m readings ++ [⟨done, .watched⟩] ++ [⟨done, .dismiss⟩] := by
      simp
    rw [hentries] at ha ⊢
    rcases List.mem_append.mp ha with ha | ha
    · rw [hfront a ha] at hdismisses
      exact absurd hdismisses (by simp)
    · rw [List.mem_singleton.mp ha]
      exact ⟨_, rfl, hfront, .inl ⟨⟨done, .watched⟩, by simp, rfl⟩⟩

/-- By the time at which a monitor is given up it has come to its end, or it breaks down. -/
theorem Phases.watched_or_broken (h : Phases w s life connecting work)
    (hsplit : life.entries = pre ++ a :: post) (hd : a.deed = .dismiss) :
    (∃ b ∈ pre, b.deed = .watched) ∨ ∃ m, life.ending = .broken m := by
  have hwork : a ∈ work.entries :=
    h.mem_work (by simp [hsplit]) (by simp [hd, Deed.isConnecting]) (by simp [hd, Deed.isLeaving])
  obtain ⟨front, hentries, hfront, hend⟩ := h.works.split_of_dismiss hwork hd
  have hbefore : ∀ e ∈ announced w :: connecting.entries ++ front, e.deed.dismisses = false := by
    refine List.forall_mem_append.mpr ⟨List.forall_mem_cons.mpr ⟨rfl, fun e he => ?_⟩, hfront⟩
    obtain ⟨c, -, hc⟩ := h.connects.isConnecting e he
    exact Deed.dismisses_of_isConnecting hc
  have hbehind : ∀ e ∈ leave w connecting.clients work.ending, e.deed.dismisses = false :=
    fun e he => Deed.dismisses_of_isLeaving (isLeaving_of_mem_leave he)
  have hlife : announced w :: connecting.entries ++ front ++
      a :: leave w connecting.clients work.ending = pre ++ a :: post := by
    rw [← hsplit, h.entries, hentries]
    simp
  obtain ⟨rfl, -⟩ := eq_of_split (P := fun e => e.deed.dismisses) hlife
    (Deed.dismisses_iff.mpr hd) hbefore hbehind
  rw [h.ending]
  apply hend.imp_left
  rintro ⟨b, hb, hwatched⟩
  exact ⟨b, List.mem_append_right _ hb, hwatched⟩

/-! ## What is told about it -/

/-- A monitor publishes nothing, and it begins. -/
theorem events_watch (s : Surroundings) (horizon : Nat) (clients : List Client)
    (monitor : Template.Monitor) (m : Moment) :
    events (Worker.watch s horizon clients monitor m).entries = [] ∧
      ⟨m, .watch (s.stopped m.time)⟩ ∈ (Worker.watch s horizon clients monitor m).entries := by
  have hnone : ∀ endTime, events (Worker.monitorReadings s clients monitor m endTime).1 = [] := by
    intro endTime
    refine List.filterMap_eq_nil_iff.mpr fun e he => ?_
    obtain ⟨answers, hd⟩ := monitorReadings_areReadings s clients monitor m endTime e he
    rw [hd]
    rfl
  unfold Worker.watch
  dsimp only
  split
  · simp [events_cons, Deed.event?, hnone]
  · split <;> simp [events_cons, Deed.event?, hnone]

theorem events_buildAndWatch (w : Worker) (s : Surroundings) (horizon : Nat)
    (clients : List Client) (m : Moment) :
    events (w.buildAndWatch s horizon clients m).entries = buildEvents w clients := by
  unfold Worker.buildAndWatch buildEvents
  cases w.factory w.name clients w.templates with
  | refused e => rfl
  | broken => rfl
  | built monitor =>
    have hnone := (events_watch s horizon clients monitor m).1
    simp [events_cons, Deed.event?, hnone]

/-- A monitor begins exactly if the resource is built. -/
theorem watch_mem_buildAndWatch_iff (w : Worker) (s : Surroundings) (horizon : Nat)
    (clients : List Client) (m : Moment) :
    (∃ a ∈ (w.buildAndWatch s horizon clients m).entries, ∃ stopped, a.deed = .watch stopped) ↔
      ∃ monitor, w.factory w.name clients w.templates = .built monitor := by
  unfold Worker.buildAndWatch
  cases w.factory w.name clients w.templates with
  | refused e => simp
  | broken => simp
  | built monitor =>
    have hbegun := (events_watch s horizon clients monitor m).2
    refine iff_of_true ⟨⟨m, .watch (s.stopped m.time)⟩, ?_, _, rfl⟩ ⟨monitor, rfl⟩
    exact List.mem_cons_of_mem _ (List.mem_cons_of_mem _ hbegun)

theorem tellsBuild_of_mem_buildEvents : ∀ e ∈ buildEvents w clients, tellsBuild e = true := by
  unfold buildEvents
  split <;> simp [tellsBuild, Worker.event, buildFailed]

/-- Connecting and taking leave tell nothing about building. -/
theorem Phases.filter_tellsBuild (h : Phases w s life connecting work) :
    (events life.entries).filter tellsBuild = (events work.entries).filter tellsBuild := by
  have hconnecting : (events connecting.entries).filter tellsBuild = [] := by
    have hkinds : ∀ e ∈ events connecting.entries, IsBackendKind e.kind := by
      obtain ⟨hreached, hcut, -⟩ := h.connects.blocks
      by_cases hend : ∃ m, connecting.ending = .reached m
      · obtain ⟨m, hm⟩ := hend
        exact (hreached m hm).isBackendKind
      · exact (hcut fun m hm => hend ⟨m, hm⟩).isBackendKind
    refine List.filter_eq_nil_iff.mpr fun e he => ?_
    rcases hkinds e he with hk | hk | hk | hk <;> simp [tellsBuild, hk]
  have hleave : (events (leave w connecting.clients work.ending)).filter tellsBuild = [] := by
    rw [events_leave]
    split <;> rfl
  rw [h.entries, events_cons, events_append, events_append, List.filter_append,
    List.filter_append, List.filter_append, hconnecting, hleave, List.append_nil, List.nil_append]
  rfl

/-! ## The whole life -/

/-- A backend is resolved in a life exactly if it is while the worker connects. -/
theorem Phases.isResolved_iff (h : Phases w s life connecting work) {cp : Connector × Nat}
    {client? : Option Client} :
    IsResolved s life.entries cp client? ↔ IsResolved s connecting.entries cp client? :=
  have heq := h.attempts_eq cp.2
  ⟨fun hres => hres.congr heq.symm, fun hres => hres.congr heq⟩

theorem Phases.builds_iff (h : Phases w s life connecting work) :
    builds life.entries ≠ [] ↔
      ∀ cp ∈ w.connectors.zipIdx, ∃ client?, IsResolved s life.entries cp client? := by
  rw [h.builds_ne_nil_iff, h.connects.reached_iff (nodup_positions w)]
  simp only [h.isResolved_iff]

/-- What the resource is built from. -/
theorem Phases.receives (h : Phases w s life connecting work)
    (hsplit : life.entries = pre ++ a :: post) (hd : a.deed = .build clients templates) :
    templates = w.templates ∧ obtained pre = clients.map Client.session ∧ closed pre = [] ∧
      ∃ found, List.Forall₂ (IsResolved s pre) w.connectors.zipIdx found ∧
        clients = clientsFrom w.connectors.zipIdx found := by
  obtain ⟨⟨m, hend⟩, hpre, hclients, htemplates⟩ := h.split_of_build hsplit hd
  obtain ⟨found, hfound, hfrom⟩ := h.connects.exists_found (nodup_positions w) hend
  have hattempts : ∀ position, attempts position pre = attempts position connecting.entries := by
    intro position
    rw [hpre, attempts_cons]
    simp [announced, Deed.attempted?]
  refine ⟨htemplates, ?_, ?_, found, hfound.imp fun cp client? hres => ?_, hclients.trans hfrom⟩
  · rw [hclients, ← h.connects.obtained_eq, hpre, obtained_cons]
    rfl
  · -- nothing is closed before the leave
    have hno := h.closed_eq_nil
    rw [← List.cons_append, ← hpre, closed_append] at hno
    exact (List.append_eq_nil_iff.mp hno).1
  · exact hres.congr (hattempts cp.2)

/-- What comes before a session is closed. -/
theorem Phases.stays_open (h : Phases w s life connecting work)
    (hsplit : life.entries = pre ++ a :: post) (ha : a.deed.closed?.isSome) :
    builds pre = builds life.entries ∧
      ∀ b ∈ life.entries, (∃ stopped, b.deed = .watch stopped) → ∃ d ∈ pre, d.deed = .dismiss := by
  obtain ⟨first, hpre, hleave⟩ := h.split_of_closed hsplit ha
  have htold : work.ending.told? = none := by
    cases hend : work.ending <;> simp_all [Ending.told?, leave]
  constructor
  · have hpost : builds (a :: post) = [] := builds_eq_nil fun e he =>
      Deed.builtFrom?_of_isLeaving
        (isLeaving_of_mem_leave (hleave ▸ List.mem_append_right first he))
    rw [hsplit, builds_append, hpost, List.append_nil]
  · rintro b hb ⟨stopped, hd⟩
    have hwork : b ∈ work.entries :=
      h.mem_work hb (by simp [hd, Deed.isConnecting]) (by simp [hd, Deed.isLeaving])
    obtain ⟨d, hmem, hdismiss⟩ := h.works.exists_dismiss htold hwork hd
    exact ⟨d, by simp [hpre, hmem], hdismiss⟩

/-- A monitor begins in a life exactly if it begins in the work. -/
theorem Phases.watch_mem_iff (h : Phases w s life connecting work) :
    (∃ a ∈ life.entries, ∃ stopped, a.deed = .watch stopped) ↔
      ∃ a ∈ work.entries, ∃ stopped, a.deed = .watch stopped := by
  constructor
  · rintro ⟨a, ha, stopped, hd⟩
    exact ⟨a, h.mem_work ha (by simp [hd, Deed.isConnecting]) (by simp [hd, Deed.isLeaving]),
      stopped, hd⟩
  · rintro ⟨a, ha, hd⟩
    exact ⟨a, by simp [h.entries, ha], hd⟩

/-- What has become of building, depending on whether connecting was complete. -/
theorem life_outcome (w : Worker) (s : Surroundings) (horizon : Nat) :
    let life := w.life s horizon
    ((∃ a ∈ life.entries, ∃ stopped, a.deed = .watch stopped) ↔
      ∃ clients ∈ builds life.entries, ∃ monitor,
        w.factory w.name clients w.templates = .built monitor) ∧
    (events life.entries).filter tellsBuild =
      (builds life.entries).flatMap (buildEvents w) := by
  intro life
  by_cases hend : ∃ m,
      (w.connectAll s (w.triesWithin horizon) w.connectors.zipIdx {}).ending = .reached m
  · obtain ⟨m, hm⟩ := hend
    have h := phases_of_reached w s horizon rfl hm
    constructor
    · rw [h.watch_mem_iff, watch_mem_buildAndWatch_iff, h.builds_of_reached hm]
      simp
    · rw [h.filter_tellsBuild, events_buildAndWatch, h.builds_of_reached hm]
      rw [List.filter_eq_self.mpr tellsBuild_of_mem_buildEvents]
      simp
  · have hno : ∀ m, _ ≠ Ending.reached m := fun m hm => hend ⟨m, hm⟩
    have h := phases_of_not_reached w s horizon rfl hno
    constructor
    · rw [h.watch_mem_iff, h.builds_of_not_reached hno]
      simp
    · rw [h.filter_tellsBuild, h.builds_of_not_reached hno]
      rfl

/-- Each worker has its resource built in this way. -/
theorem life_buildsFromAll (w : Worker) (s : Surroundings) (horizon : Nat) :
    BuildsFromAll w s (w.life s horizon) := by
  obtain ⟨connecting, work, h⟩ := life_phases w s horizon
  obtain ⟨hwatches, htold⟩ := life_outcome w s horizon
  refine ⟨?_, h.builds_iff, ?_, ?_, ?_, hwatches, htold⟩
  · by_cases hend : ∃ m, connecting.ending = .reached m
    · obtain ⟨m, hm⟩ := hend
      simp [h.builds_of_reached hm]
    · simp [h.builds_of_not_reached fun m hm => hend ⟨m, hm⟩]
  · intro pre a post clients templates hsplit hd
    exact h.receives hsplit hd
  · intro pre a post hsplit ha
    exact h.stays_open hsplit ha
  · intro pre d post hsplit hd
    exact h.watched_or_broken hsplit hd

/-- **The resource is built when all backends are resolved.** What a worker does in a run is the
    beginning of its life, and all of it if the run comes to its end. In this life it has its
    resource built once at most, and exactly if each of its backends is connected or found not to be
    configured before it is asked to stop; it is built from the clients of the connected ones in
    their order, none of which is closed until the monitor has come to its end. A resource that
    cannot be built is not built again, and not watched. -/
theorem Supervisor.run_builds (s : Supervisor) (jobs : List Job) (world : World) (script : Script)
    (horizon : Nat) (i : Fin jobs.length) :
    let w := s.worker (jobs.get i) i
    let around := runSurroundings world script
    let course := (s.run jobs world script horizon).1.course
    let life := w.life around horizon
    deedsOf i course.rounds <+: story life.entries ∧
      (course.finish.isSome = true → deedsOf i course.rounds = story life.entries) ∧
      BuildsFromAll w around life := by
  intro w around course life
  have hunfolds := Course.ofWorkers_unfolds (s.workers jobs) around horizon
  have hproper := isProper_lives (s.workers jobs) around horizon
  have hlife : ((s.workers jobs).map fun w => w.life around horizon)[i.val]? = some life := by
    rw [List.getElem?_map, s.getElem?_workers i]
    rfl
  refine ⟨hunfolds.deedsOf_rounds_prefix hproper hlife, fun hfinish => ?_,
    life_buildsFromAll w around horizon⟩
  exact (hunfolds.deedsOf_rounds_eq hproper hlife hfinish).2

end Steward.Supervision
