import Steward.Backend.Client

/-!
# Custody of sessions

A program holds at most one client set, and copies of clients beside it. This module follows such a
program step by step and keeps the books on its sessions: which were put into a set and which were
closed, as often as it happened.

The steps are `new`, `push`, `release` and `drop` of a `BackendClientSet`, and `clone` of a
`BackendClient`.
-/

namespace Steward.Backend

/-- What a program holds, and the books on its sessions. -/
structure Custody where
  /-- The client set, if there is one. -/
  live : Option ClientSet := some .empty
  /-- The copies of clients. -/
  copies : List Client := []
  /-- The number of sessions that were opened. They are numbered from zero. -/
  opened : Nat := 0
  /-- The session of each client that was put into a set. -/
  pushed : List Nat := []
  /-- The sessions that were closed. -/
  closed : List Nat := []

/-- A place that a client can be copied from. -/
inductive Source where
  /-- Position `i` of the client set. -/
  | live (i : Nat)
  /-- Position `i` of the copies. -/
  | copy (i : Nat)
  deriving DecidableEq, Repr

/-- A step of a program. -/
inductive CustodyStep where
  /-- Gives up the client set and starts a new one. -/
  | renew
  /-- Gives up the client set. -/
  | abandon
  /-- Puts a client with a session of its own into the set. -/
  | push (client : Client)
  /-- Copies a client. -/
  | copy (source : Source)
  /-- Puts a copy back into the set. -/
  | pushCopy (i : Nat)
  /-- Gives up a copy. -/
  | dropCopy (i : Nat)
  /-- Gives up the copies. -/
  | dropCopies
  /-- Releases the client set. -/
  | release

/-- What a step answers. -/
inductive CustodyAnswer where
  /-- It was carried out. -/
  | done
  /-- There is no such set or client. -/
  | missing
  /-- It closed some sessions. -/
  | released (count : Nat)
  deriving DecidableEq, Repr

namespace Custody

/-- The client at a place. -/
def client? (c : Custody) : Source → Option Client
  | .live i => c.live.bind fun s => s.clients[i]?
  | .copy i => c.copies[i]?

/-- The sessions of the clients in the set. -/
def held (c : Custody) : List Nat := (c.live.map ClientSet.sessions).getD []

/-- Closes the sessions of clients and goes on with another client set. -/
def closeInto (c : Custody) (clients : List Client) (next : Option ClientSet) : Custody :=
  { c with live := next, closed := c.closed ++ clients.map Client.session }

/-- The clients whose sessions are closed when the client set is given up. -/
def abandoned (c : Custody) : List Client := (c.live.map ClientSet.abandon).getD []

/-- Puts a client into the set. -/
def pushInto (c : Custody) (s : ClientSet) (client : Client) : Custody :=
  { c with live := some (s.push client), pushed := c.pushed ++ [client.session] }

/-- Carries out a step. -/
def step (c : Custody) : CustodyStep → CustodyAnswer × Custody
  | .renew => (.done, c.closeInto c.abandoned (some .empty))
  | .abandon => (.done, c.closeInto c.abandoned none)
  | .push client =>
    match c.live with
    | none => (.missing, c)
    | some s =>
      (.done, { c with opened := c.opened + 1 }.pushInto s { client with session := c.opened })
  | .copy source =>
    match c.client? source with
    | none => (.missing, c)
    | some client => (.done, { c with copies := c.copies ++ [client] })
  | .pushCopy i =>
    match c.live, c.copies[i]? with
    | some s, some client => (.done, c.pushInto s client)
    | _, _ => (.missing, c)
  | .dropCopy i =>
    match c.copies[i]? with
    | none => (.missing, c)
    | some _ => (.done, { c with copies := c.copies.eraseIdx i })
  | .dropCopies => (.done, { c with copies := [] })
  | .release =>
    match c.live with
    | none => (.missing, c)
    | some s =>
      let (clients, left) := s.release
      (.released clients.length, c.closeInto clients (some left))

/-- How often each session was closed, in the order in which they were opened. -/
def closeCounts (c : Custody) : List Nat :=
  (List.range c.opened).map fun session => c.closed.count session

end Custody

end Steward.Backend
