import Steward.Backend.Client
import Steward.Config.Resource

/-!
# Templates at work

Building turns the clients and the templates of a resource into a monitor, which then keeps the
outputs of the templates up to date until it is asked to stop.

`BuildError` has `as_label` (`label`).
-/

namespace Steward.Template

/-- Why a resource cannot be built. -/
inductive BuildError where
  /-- A template is not valid. -/
  | invalidTemplate (reason : String)
  /-- Building failed. -/
  | failed (cause : String)
  deriving DecidableEq, Repr

namespace BuildError

/-- The message of an error. -/
def message : BuildError → String
  | invalidTemplate reason => "invalid template: " ++ reason
  | failed cause => "build failed: " ++ cause

/-- The label of an error. -/
def label : BuildError → String
  | invalidTemplate _ => "build_invalid_template"
  | failed _ => "build_failed"

end BuildError

end Steward.Template
