import Steward.Backend.Lookup
import Steward.Backend.Settings

/-!
# Clients

A client is a handle to an open session of a store. Handles can be copied; copies share the session.
A client set owns the sessions of the clients in it: releasing it closes the session of each client
it holds and leaves it empty, and a set that is given up is released. Nothing else closes a session.

A client is a `BackendClient`, with `prefixed_keys`, `values` and `get_values`; a client set is a
`BackendClientSet`, with `push` and `release`, and `abandon` is its `drop`.
-/

namespace Steward.Backend

/-- A handle to a session. -/
structure Client where
  /-- The name of the backend. -/
  name : String
  /-- What to read from it. -/
  settings : Settings := {}
  /-- The session. -/
  session : Nat := 0
  /-- True if a file is read for each answer, for which the asker has to wait. -/
  readsFile : Bool := false
  /-- The answers of the store. -/
  lookup : Lookup

namespace Client

/-- The keys of the settings under their namespace. -/
def prefixedKeys (c : Client) : List String := c.settings.prefixedKeys

/-- The pairs under the keys of the settings. -/
def values (c : Client) (world : World) : Except LookupError Pairs := c.lookup world c.prefixedKeys

/-- The description of a client. -/
def describe (c : Client) : String :=
  describeRecord "BackendClient"
    [("name", Text.quote c.name), ("settings", c.settings.describe)] false

end Client

/-- The clients of one resource, in the order in which they were connected. -/
structure ClientSet where
  /-- The clients. -/
  clients : List Client := []

namespace ClientSet

/-- The set without clients. -/
def empty : ClientSet := {}

/-- The number of clients. -/
def size (s : ClientSet) : Nat := s.clients.length

/-- Adds a client at the end. -/
def push (s : ClientSet) (c : Client) : ClientSet := ⟨s.clients ++ [c]⟩

/-- The sessions of the clients, in order. -/
def sessions (s : ClientSet) : List Nat := s.clients.map Client.session

/-- Releases the set: the clients whose sessions are closed by it, in order, and the set that is
    left. -/
def release (s : ClientSet) : List Client × ClientSet := (s.clients, empty)

/-- Gives up the set: the clients whose sessions are closed by it, in order. -/
def abandon (s : ClientSet) : List Client := s.release.1

/-- The description of a set. -/
def describe (s : ClientSet) : String :=
  describeRecord "BackendClientSet"
    [("clients", "[" ++ ", ".intercalate (s.clients.map Client.describe) ++ "]")] true

end ClientSet

end Steward.Backend
