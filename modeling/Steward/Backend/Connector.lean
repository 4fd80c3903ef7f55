import Steward.Backend.Client
import Steward.Backend.EnvironmentStore
import Steward.Backend.FileStore

/-!
# Connectors

A connector opens a session of one backend. An attempt takes some time and then succeeds, fails, or
finds that there is nothing to connect to. The backends of a resource are its environment, its file,
and those that were added to them, in this order; one that is not configured has a connector too.

A connector is a `Connect`, and its attempts are what `connect` does: for an absent section
(`Unconfigured`), for an `EnvConfig` (`environment`) and for a `FileConfig` (`file`).
`Group.connectors` is `connectors` of the `BackendsConfig`, to which `with_connector` has added
some. `ConnectError` has `as_label` (`label`) and `is_retryable` (`isRetryable`).
-/

namespace Steward.Backend

/-- Why there is no client. -/
inductive ConnectError where
  /-- The resource does not use this backend. -/
  | notConfigured
  /-- An attempt failed. -/
  | failed (backend cause : String)
  deriving DecidableEq, Repr

namespace ConnectError

/-- The message of an error. -/
def message : ConnectError → String
  | notConfigured => "backend not configured"
  | failed backend cause => "connect " ++ backend ++ ": " ++ cause

/-- The label of an error. -/
def label : ConnectError → String
  | notConfigured => "backend_not_configured"
  | failed .. => "backend_connect_failed"

/-- True if another attempt may help. -/
def isRetryable (e : ConnectError) : Bool := e != notConfigured

end ConnectError

/-- How an attempt ends. -/
inductive ConnectOutcome where
  /-- A session is open. -/
  | connected (client : Client)
  /-- There is none. -/
  | failed (error : ConnectError)
  /-- The connector breaks down. -/
  | broken

/-- What an attempt waits for. -/
inductive ConnectDelay where
  /-- Nothing. -/
  | none
  /-- A file is read. -/
  | file
  /-- Some milliseconds pass. -/
  | sleep (ms : Nat)
  deriving DecidableEq, Repr

/-- An attempt to connect. -/
structure Attempt where
  /-- What it waits for. -/
  delay : ConnectDelay := .none
  /-- How it ends in the world of that moment. -/
  outcome : World → ConnectOutcome

/-- A connector: its name, and its attempts one after the other. -/
structure Connector where
  /-- The name of the backend. -/
  name : String
  /-- The attempt with a number, counted from zero. -/
  attempt : Nat → Attempt

namespace Connector

/-- The connector of a backend that is not configured. -/
def unconfigured (name : String) : Connector where
  name := name
  attempt _ := { outcome := fun _ => .failed .notConfigured }

/-- The client of the environment. -/
def environmentClient (s : EnvironmentSection) : Client where
  name := EnvironmentStore.kind
  settings := s.settings
  lookup := EnvironmentStore.lookup

/-- The connector of the environment. It always succeeds. -/
def environment (s : EnvironmentSection) : Connector where
  name := EnvironmentStore.kind
  attempt _ := { outcome := fun _ => .connected (environmentClient s) }

/-- The client of a document. -/
def fileClient (s : FileSection) : Client where
  name := FileStore.kind
  settings := s.settings
  readsFile := true
  lookup := FileStore.lookup s.filepath

/-- How an attempt to connect to a document ends: it fails if the document cannot be read now. -/
def fileOutcome (s : FileSection) (world : World) : ConnectOutcome :=
  match FileStore.read world s.filepath with
  | .error e => .failed (.failed FileStore.kind e.message)
  | .ok _ => .connected (fileClient s)

/-- The connector of a document. -/
def file (s : FileSection) : Connector where
  name := FileStore.kind
  attempt _ := { delay := .file, outcome := fileOutcome s }

/-- A connector whose attempts are given. Behind the last one it repeats; without any, an attempt
    ends as `otherwise` says. -/
def ofAttempts (name : String) (attempts : List Attempt) (otherwise : Attempt) : Connector where
  name := name
  attempt n := attempts[n]?.getD (attempts.getLastD otherwise)

end Connector

/-- The connectors of a group, in the order in which they are tried, with those that were added. -/
def Group.connectors (g : Group) (added : List Connector) : List Connector :=
  (g.env.map Connector.environment).getD (.unconfigured EnvironmentStore.kind) ::
    (g.file.map Connector.file).getD (.unconfigured FileStore.kind) :: added

end Steward.Backend
