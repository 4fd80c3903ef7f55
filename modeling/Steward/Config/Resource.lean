import Steward.Backend.Settings
import Steward.Log.Settings

/-!
# Configuration

A configuration says how to log and declares resources. A resource is a list of templates with the
backends they read from, and is the unit of work of the supervisor.

These are `TemplateConfig`, `Resource` and `Configuration`, with `name`, `is_empty` and
`log_settings`; the name by position is given in `spawn_workers`.
-/

namespace Steward.Config

/-- One output to render. -/
structure Template where
  /-- The path of the template. -/
  src : String
  /-- The path of the output. -/
  dst : String
  /-- The file mode of the output. -/
  mode : Option String := none
  /-- The command that checks a new output before it is put in place. -/
  checkCmd : Option String := none
  /-- The command to run when the output has changed. -/
  reloadCmd : Option String := none
  deriving DecidableEq, Repr, Inhabited

/-- Templates with the backends they read from. -/
structure Resource where
  /-- The name, if one is configured. -/
  configuredName : Option String := none
  /-- The templates. -/
  templates : List Template := []
  /-- The backends. -/
  backends : Backend.Group := {}
  deriving DecidableEq, Repr, Inhabited

namespace Resource

/-- The name in logs and events. -/
def name (r : Resource) : String := r.configuredName.getD "resource"

/-- True if there is nothing to render. -/
def isEmpty (r : Resource) : Bool := r.templates.isEmpty

/-- The resource with a name, its own or the given one. -/
def withDefaultName (r : Resource) (name : String) : Resource :=
  { r with configuredName := some (r.configuredName.getD name) }

/-- The name of the resource without a name of its own at position `i`. -/
def positionName (i : Nat) : String := "resource-" ++ toString i

end Resource

/-- A configuration. -/
structure Configuration where
  /-- The word for the log level. -/
  logLevel : String := ""
  /-- The word for the log format. -/
  logFormat : String := ""
  /-- The directory of further resources. -/
  includeDir : Option String := none
  /-- The resources. -/
  resources : List Resource := []
  deriving DecidableEq, Repr, Inhabited

/-- The log settings of a configuration. -/
def Configuration.logSettings (c : Configuration) : Log.Settings := ⟨c.logLevel, c.logFormat⟩

end Steward.Config
