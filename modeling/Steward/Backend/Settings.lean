import Steward.Key.Path
import Steward.Text.Quoted

/-!
# Settings of backends

What the configuration says about the backends of a resource: the namespace and the keys to look up
there, and for a file backend the path of the document.

These are `BackendSettings`, `EnvConfig`, `FileConfig` and `BackendsConfig`, and `describe` is their
`fmt`.
-/

namespace Steward.Backend

/-- The keys that are read from a backend, and the namespace they are resolved under. -/
structure Settings where
  /-- The namespace. -/
  keyPrefix : String := ""
  /-- The keys, relative to the namespace. -/
  keys : List String := []
  deriving DecidableEq, Repr, Inhabited

/-- The keys under their namespace. -/
def Settings.prefixedKeys (s : Settings) : List String := Key.prefixKeys s.keyPrefix s.keys

/-- The section of an environment backend. -/
structure EnvironmentSection where
  /-- The keys to read. -/
  settings : Settings := {}
  deriving DecidableEq, Repr, Inhabited

/-- The section of a file backend. -/
structure FileSection where
  /-- The path of the document. -/
  filepath : String
  /-- The keys to read. -/
  settings : Settings := {}
  deriving DecidableEq, Repr, Inhabited

/-- The backend sections of a resource. -/
structure Group where
  /-- The environment backend, if it is configured. -/
  env : Option EnvironmentSection := none
  /-- The file backend, if it is configured. -/
  file : Option FileSection := none
  deriving DecidableEq, Repr, Inhabited

/-! ## Descriptions -/

/-- The description of a record: its name, and its fields in braces. -/
def describeRecord (name : String) (fields : List (String × String)) (complete : Bool) : String :=
  let shown := fields.map (fun f => f.1 ++ ": " ++ f.2) ++ if complete then [] else [".."]
  name ++ " \x7b " ++ ", ".intercalate shown ++ " \x7d"

/-- The description of a value that may be absent. -/
def describeOption {α : Type} (describe : α → String) : Option α → String
  | none => "None"
  | some a => "Some(" ++ describe a ++ ")"

/-- The description of settings. -/
def Settings.describe (s : Settings) : String :=
  describeRecord "BackendSettings"
    [("prefix", Text.quote s.keyPrefix), ("keys", Text.quoteList s.keys)] true

/-- The description of an environment section. -/
def EnvironmentSection.describe (s : EnvironmentSection) : String :=
  describeRecord "EnvConfig" [("settings", s.settings.describe)] true

/-- The description of a file section. -/
def FileSection.describe (s : FileSection) : String :=
  describeRecord "FileConfig"
    [("filepath", Text.pathQuotes.quote s.filepath), ("settings", s.settings.describe)] true

/-- The description of a group, with the names of the connectors that are added to it. -/
def Group.describe (g : Group) (added : List String) : String :=
  describeRecord "BackendsConfig"
    [("env", describeOption EnvironmentSection.describe g.env),
      ("file", describeOption FileSection.describe g.file), ("extra", Text.quoteList added)] true

end Steward.Backend
