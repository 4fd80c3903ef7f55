import Steward.Backend.Custody

/-!
# The closing of sessions

A session is closed as often as handles to it were put into a client set, save for those handles
that the set still holds. Copies have no part in it, nor do questions to clients.

Results:
* `Custody.books_of_empties`, `Custody.books_of_not_empties`: what an action does to the books.
* `Custody.IsBalanced.run`: what was put into a set was closed or is held there.
* `Custody.IsFresh.run`: sessions come from pushes of new clients only.
* `Custody.close_accounting`: the accounts of a program after any number of actions.
-/

namespace Steward.Backend

/-- What a program does with its client set and its copies. -/
inductive Action where
  /-- It takes a step. -/
  | take (step : CustodyStep)
  /-- It asks a client for the pairs under some keys. -/
  | ask (source : Source) (world : World) (keys : List String)

/-- True of the actions that give up or release the client set. -/
def Action.empties : Action → Bool
  | .take .renew | .take .abandon | .take .release => true
  | _ => false

namespace Custody

/-- What a program holds after an action. An answer changes nothing. -/
def act (c : Custody) : Action → Custody
  | .take step => (c.step step).2
  | .ask .. => c

/-- What a program holds after some actions. -/
def run (c : Custody) (actions : List Action) : Custody := actions.foldl act c

/-- The session of the handle that an action puts into the client set. -/
def pushedBy (c : Custody) : Action → List Nat
  | .take (.push _) => if c.live.isSome then [c.opened] else []
  | .take (.pushCopy i) => if c.live.isSome then (c.copies[i]?.map Client.session).toList else []
  | _ => []

variable {c : Custody} {a : Action}

/-! ## The books -/

theorem map_abandoned (c : Custody) : c.abandoned.map Client.session = c.held := by
  unfold abandoned held
  cases c.live <;> rfl

theorem held_eq_nil (h : c.live = none) : c.held = [] := by
  unfold held
  rw [h]
  rfl

theorem held_of_live {s : ClientSet} (h : c.live = some s) : c.held = s.sessions := by
  unfold held
  rw [h]
  rfl

theorem step_release_of_none (h : c.live = none) : c.step .release = (.missing, c) := by
  simp only [step, h]

theorem step_release {s : ClientSet} (h : c.live = some s) :
    c.step .release = (.released c.held.length, c.closeInto s.clients (some .empty)) := by
  rw [held_of_live h]
  unfold step ClientSet.sessions
  simp only [h, List.length_map]
  rfl

/-- Giving up or releasing the client set closes what the set holds. -/
theorem books_of_empties (c : Custody) (ha : a.empties = true) :
    (c.act a).closed = c.closed ++ c.held ∧ (c.act a).held = [] ∧ c.pushedBy a = [] := by
  match a with
  | .take .renew | .take .abandon =>
    exact ⟨congrArg (c.closed ++ ·) c.map_abandoned, rfl, rfl⟩
  | .take .release =>
    simp only [act]
    cases hlive : c.live with
    | none =>
      rw [step_release_of_none hlive, held_eq_nil hlive, List.append_nil]
      exact ⟨rfl, rfl, rfl⟩
    | some s =>
      rw [step_release hlive, held_of_live hlive]
      exact ⟨rfl, rfl, rfl⟩

/-- Any other action closes nothing, and the set holds in addition what is put into it. -/
theorem books_of_not_empties (c : Custody) (ha : a.empties = false) :
    (c.act a).closed = c.closed ∧ (c.act a).held = c.held ++ c.pushedBy a := by
  have hnone : c.closed = c.closed ∧ c.held = c.held ++ [] := ⟨rfl, (List.append_nil _).symm⟩
  match a with
  | .ask .. | .take .dropCopies => exact hnone
  | .take (.copy source) =>
    simp only [act, step]
    cases c.client? source <;> exact hnone
  | .take (.dropCopy i) =>
    simp only [act, step]
    cases c.copies[i]? <;> exact hnone
  | .take (.push client) =>
    simp only [act, step, pushedBy]
    cases hlive : c.live with
    | none => exact hnone
    | some s =>
      rw [held_of_live hlive]
      exact ⟨rfl, List.map_append⟩
  | .take (.pushCopy i) =>
    simp only [act, step, pushedBy]
    cases hlive : c.live with
    | none => exact hnone
    | some s =>
      cases hcopy : c.copies[i]? with
      | none => exact hnone
      | some client =>
        rw [held_of_live hlive]
        exact ⟨rfl, List.map_append⟩

/-- The books say what an action puts into the set. -/
theorem pushed_act (c : Custody) (a : Action) : (c.act a).pushed = c.pushed ++ c.pushedBy a := by
  have hnone : c.pushed = c.pushed ++ [] := (List.append_nil _).symm
  match a with
  | .ask .. | .take .dropCopies | .take .renew | .take .abandon => exact hnone
  | .take .release =>
    simp only [act]
    cases hlive : c.live with
    | none =>
      rw [step_release_of_none hlive]
      exact hnone
    | some s =>
      rw [step_release hlive]
      exact hnone
  | .take (.copy source) =>
    simp only [act, step]
    cases c.client? source <;> exact hnone
  | .take (.dropCopy i) =>
    simp only [act, step]
    cases c.copies[i]? <;> exact hnone
  | .take (.push client) =>
    simp only [act, step, pushedBy]
    cases c.live with
    | none => exact hnone
    | some s => rfl
  | .take (.pushCopy i) =>
    simp only [act, step, pushedBy]
    cases c.live with
    | none => exact hnone
    | some s =>
      cases c.copies[i]? with
      | none => exact hnone
      | some client => rfl

/-- What was put into a client set was closed or is held by the set. -/
def IsBalanced (c : Custody) : Prop := (c.closed ++ c.held).Perm c.pushed

theorem IsBalanced.act (h : c.IsBalanced) (a : Action) : (c.act a).IsBalanced := by
  have hbooks : (c.act a).closed ++ (c.act a).held = c.closed ++ c.held ++ c.pushedBy a := by
    cases ha : a.empties with
    | true =>
      obtain ⟨hclosed, hheld, hpushed⟩ := c.books_of_empties ha
      rw [hclosed, hheld, hpushed]
    | false =>
      obtain ⟨hclosed, hheld⟩ := c.books_of_not_empties ha
      rw [hclosed, hheld, List.append_assoc]
  unfold IsBalanced
  rw [hbooks, pushed_act]
  exact h.append_right _

theorem IsBalanced.run (h : c.IsBalanced) (actions : List Action) :
    (c.run actions).IsBalanced := by
  induction actions generalizing c with
  | nil => exact h
  | cons a rest ih => exact ih (h.act a)

theorem IsBalanced.count_eq (h : c.IsBalanced) (session : Nat) :
    c.closed.count session + c.held.count session = c.pushed.count session := by
  rw [← List.count_append]
  exact List.Perm.count_eq h session

theorem closed_prefix_act (c : Custody) (a : Action) : c.closed <+: (c.act a).closed := by
  cases ha : a.empties with
  | true => exact (c.books_of_empties ha).1 ▸ List.prefix_append ..
  | false => exact (c.books_of_not_empties ha).1 ▸ List.prefix_rfl

theorem closed_prefix_run (c : Custody) (actions : List Action) :
    c.closed <+: (c.run actions).closed := by
  induction actions generalizing c with
  | nil => exact List.prefix_rfl
  | cons a rest ih => exact (c.closed_prefix_act a).trans (ih (c.act a))

/-! ## New sessions -/

/-- The clients in the set and the copies. -/
def clients (c : Custody) : List Client := (c.live.map ClientSet.clients).getD [] ++ c.copies

/-- The next session is a new one. -/
structure IsFresh (c : Custody) : Prop where
  clients : ∀ client ∈ c.clients, client.session < c.opened
  pushed : ∀ session ∈ c.pushed, session < c.opened

theorem mem_clients {source : Source} {client : Client} (h : c.client? source = some client) :
    client ∈ c.clients := by
  unfold clients
  cases source with
  | live i =>
    obtain ⟨s, hs, hi⟩ := Option.bind_eq_some_iff.mp h
    rw [hs]
    exact List.mem_append_left _ (List.mem_of_getElem? hi)
  | copy i => exact List.mem_append_right _ (List.mem_of_getElem? h)

/-- An action that opens no session gives access to no client that was not there before. -/
theorem clients_act (c : Custody) (a : Action) :
    (c.act a).opened = c.opened ∧ (c.act a).clients ⊆ c.clients ∧
        (∀ s ∈ c.pushedBy a, ∃ client ∈ c.clients, client.session = s) ∨
      (c.act a).opened = c.opened + 1 ∧ c.pushedBy a = [c.opened] ∧
        ∀ client ∈ (c.act a).clients, client ∈ c.clients ∨ client.session = c.opened := by
  have hsame : c.opened = c.opened ∧ c.clients ⊆ c.clients ∧
      ∀ s ∈ ([] : List Nat), ∃ client ∈ c.clients, client.session = s :=
    ⟨rfl, List.Subset.refl _, by simp⟩
  have hcopies : c.copies ⊆ c.clients := List.subset_append_right ..
  match a with
  | .ask .. => exact .inl hsame
  | .take .renew => exact .inl ⟨rfl, hcopies, by simp [pushedBy]⟩
  | .take .abandon => exact .inl ⟨rfl, hcopies, by simp [pushedBy]⟩
  | .take .release =>
    simp only [act]
    cases hlive : c.live with
    | none =>
      rw [step_release_of_none hlive]
      exact .inl hsame
    | some set =>
      rw [step_release hlive]
      exact .inl ⟨rfl, hcopies, by simp [pushedBy]⟩
  | .take .dropCopies => exact .inl ⟨rfl, by simp [act, step, clients], by simp [pushedBy]⟩
  | .take (.dropCopy i) =>
    simp only [act, step]
    cases c.copies[i]? with
    | none => exact .inl hsame
    | some client =>
      refine .inl ⟨rfl, List.append_subset.mpr ⟨List.subset_append_left .., ?_⟩, by simp [pushedBy]⟩
      exact List.Subset.trans (List.eraseIdx_subset ..) hcopies
  | .take (.copy source) =>
    simp only [act, step]
    cases hclient : c.client? source with
    | none => exact .inl hsame
    | some client =>
      refine .inl ⟨rfl, fun d hd => ?_, by simp [pushedBy]⟩
      have hd : d ∈ c.clients ++ [client] := by rwa [clients, List.append_assoc]
      obtain hd | hd := List.mem_append.mp hd
      · exact hd
      · exact List.mem_singleton.mp hd ▸ mem_clients hclient
  | .take (.push client) =>
    simp only [act, step, pushedBy]
    cases hlive : c.live with
    | none => exact .inl hsame
    | some set =>
      refine .inr ⟨rfl, rfl, fun d hd => ?_⟩
      simp only [clients, pushInto, ClientSet.push, Option.map_some, Option.getD_some,
        List.mem_append, List.mem_singleton] at hd
      simp only [clients, hlive, Option.map_some, Option.getD_some, List.mem_append]
      obtain (hd | rfl) | hd := hd
      · exact .inl (.inl hd)
      · exact .inr rfl
      · exact .inl (.inr hd)
  | .take (.pushCopy i) =>
    simp only [act, step, pushedBy]
    cases hlive : c.live with
    | none => exact .inl hsame
    | some set =>
      cases hcopy : c.copies[i]? with
      | none => exact .inl hsame
      | some client =>
        have hclient : client ∈ c.clients := hcopies (List.mem_of_getElem? hcopy)
        refine .inl ⟨rfl, fun d hd => ?_, by simpa using ⟨client, hclient, rfl⟩⟩
        simp only [clients, pushInto, ClientSet.push, Option.map_some, Option.getD_some,
          List.mem_append, List.mem_singleton] at hd
        obtain (hd | rfl) | hd := hd
        · rw [clients, hlive]
          exact List.mem_append_left _ hd
        · exact hclient
        · exact hcopies hd

theorem IsFresh.act (h : c.IsFresh) (a : Action) : (c.act a).IsFresh := by
  obtain ⟨hopened, hclients, hpushed⟩ | ⟨hopened, hpushed, hclients⟩ := c.clients_act a
  · constructor <;> rw [hopened]
    · exact fun client hclient => h.clients client (hclients hclient)
    · intro session hsession
      rw [pushed_act] at hsession
      obtain hold | hnew := List.mem_append.mp hsession
      · exact h.pushed session hold
      · obtain ⟨client, hclient, rfl⟩ := hpushed session hnew
        exact h.clients client hclient
  · constructor <;> rw [hopened]
    · intro client hclient
      obtain hold | hnew := hclients client hclient
      · exact Nat.lt_succ_of_lt (h.clients client hold)
      · omega
    · intro session hsession
      rw [pushed_act, hpushed] at hsession
      obtain hold | hnew := List.mem_append.mp hsession
      · exact Nat.lt_succ_of_lt (h.pushed session hold)
      · rw [List.mem_singleton.mp hnew]
        exact Nat.lt_succ_self _

theorem IsFresh.run (h : c.IsFresh) (actions : List Action) : (c.run actions).IsFresh := by
  induction actions generalizing c with
  | nil => exact h
  | cons a rest ih => exact ih (h.act a)

/-! ## The accounts -/

theorem isBalanced_start : IsBalanced {} := List.Perm.refl _

theorem isFresh_start : IsFresh {} :=
  ⟨by simp [clients, ClientSet.empty], by simp⟩

/-- The accounts of a program that has taken some actions. -/
theorem close_accounting (actions : List Action) :
    let c := run {} actions
    -- The books say what is put into a set, and the session of a new client was never put there.
    (∀ a, (c.act a).pushed = c.pushed ++ c.pushedBy a) ∧
    c.pushed.count c.opened = 0 ∧
    -- What was put into a set and is not held any more was closed.
    (∀ session, c.closed.count session + c.held.count session = c.pushed.count session) ∧
    -- A release closes what is held; there is nothing left for another.
    (∀ set, c.live = some set →
      (c.step .release).1 = .released c.held.length ∧ (c.step .release).2.live = some .empty ∧
      ((c.step .release).2.step .release).1 = .released 0) ∧
    -- Nothing is closed unless the set is given up or released; then all of it is.
    (∀ a, (c.act a).closed = c.closed ++ if a.empties then c.held else []) ∧
    -- A session that is put into a set once is closed once when the set is emptied, and stays so.
    (∀ a later session, a.empties = true → c.pushed.count session = 1 →
      (c.run (a :: later)).pushed.count session = 1 →
      (c.run (a :: later)).closed.count session = 1) := by
  intro c
  have hbalanced : c.IsBalanced := isBalanced_start.run actions
  have hfresh : c.IsFresh := isFresh_start.run actions
  refine ⟨c.pushed_act, ?_, hbalanced.count_eq, fun set hset => ?_, fun a => ?_, ?_⟩
  · exact List.count_eq_zero.mpr fun h => Nat.lt_irrefl _ (hfresh.pushed _ h)
  · rw [step_release hset]
    exact ⟨rfl, rfl, rfl⟩
  · cases ha : a.empties with
    | true => exact (c.books_of_empties ha).1
    | false => rw [(c.books_of_not_empties ha).1, if_neg Bool.false_ne_true, List.append_nil]
  · intro a later session ha hbefore hafter
    -- It is closed by the action that empties the set; a second time would be one too many.
    have hthen : (c.act a).closed.count session = 1 := by
      rw [(c.books_of_empties ha).1, List.count_append, hbalanced.count_eq, hbefore]
    have hle : 1 ≤ (c.run (a :: later)).closed.count session :=
      hthen ▸ ((c.act a).closed_prefix_run later).sublist.count_le session
    have hend := (hbalanced.run (a :: later)).count_eq session
    omega

end Custody

end Steward.Backend
