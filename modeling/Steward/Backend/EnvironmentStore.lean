import Steward.Backend.Lookup
import Steward.Text.Case

/-!
# The store of an environment

The variables of the environment as pairs: the name of a variable in lower case with slashes in
place of underscores is its key. A key finds every variable whose name starts with the key's own
variable name, so the key `/app` finds `APP`, `APP_PORT` and also `APPLE`.

`find` is `get_values` of the `EnvStore`, `variableName` is `to_env_name`, and `keyOf` is `to_key`.
-/

namespace Steward.Backend.EnvironmentStore

/-- The kind of this backend. -/
def kind : String := "env"

/-- The name of the variable of a key. -/
def variableName (key : List Char) : List Char :=
  Text.toUpper ((key.dropWhile (· = '/')).map fun c => if c = '/' then '_' else c)

/-- The key of a variable. -/
def keyOf (name : List Char) : List Char :=
  '/' :: (Text.toLower name).map fun c => if c = '_' then '/' else c

/-- True if a variable is found by a key. -/
def finds (key name : String) : Bool := (variableName key.toList).isPrefixOf name.toList

/-- The pairs of an environment that are found by some key. If two variables have one key, the last
    one counts. -/
def find (env : Environment) (keys : List String) : Pairs :=
  .ofList ((env.entries.filter fun v => keys.any fun key => finds key v.1).map fun v =>
    (String.ofList (keyOf v.1.toList), v.2))

/-- The answers of the environment, which is read anew for each lookup. -/
def lookup : Lookup := fun world keys => .ok (find world.environment keys)

end Steward.Backend.EnvironmentStore
