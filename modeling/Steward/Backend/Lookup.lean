import Std.Data.ExtTreeMap
import Steward.World.Basic

/-!
# Lookups in a store

A store answers a list of keys with pairs of a key and a value, or with an error. What it answers
may depend on the world at that moment, so a lookup is a function of it.

A lookup is `get_values` of a `Backend`, and its errors are those of `BackendError`.
-/

namespace Steward.Backend

/-- Values by key; the keys are in the order of their code points. -/
abbrev Pairs := Std.ExtTreeMap String String

/-- Why a store gives no answer. -/
inductive LookupError where
  /-- The store cannot be reached. -/
  | unavailable (backend cause : String)
  /-- The store holds something that cannot be read. -/
  | malformed (backend cause : String)
  deriving DecidableEq, Repr

/-- The message of an error. -/
def LookupError.message : LookupError → String
  | unavailable backend cause => "backend " ++ backend ++ " unavailable: " ++ cause
  | malformed backend cause => "backend " ++ backend ++ " returned malformed data: " ++ cause

/-- The answers of a store to lists of keys. -/
abbrev Lookup := World → List String → Except LookupError Pairs

/-- A store that knows a fixed set of pairs and finds them by their full keys. -/
def Lookup.fixed (known : List (String × String)) : Lookup := fun _ keys =>
  .ok (.ofList (keys.filterMap fun key => (known.lookup key).map fun value => (key, value)))

/-- A store that gives no answer. -/
def Lookup.failing (error : LookupError) : Lookup := fun _ _ => .error error

end Steward.Backend
