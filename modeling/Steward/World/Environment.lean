/-!
# The environment of a process

An environment is the list of its variables in the order in which they were first set. Setting a
variable again changes its value in place.

Main statements: `Environment.lookup` reads the stored text `name=value`, so a name that contains
`=` can match inside a value; for every other name it is the value of the variable of that name.

`Environment.lookup` is `var`, which `expand_env` asks, and the list is `vars`, of which the store
of an environment takes a snapshot.
-/

namespace Steward

/-- The variables of a process, in the order in which they were first set. -/
structure Environment where
  /-- Names and values, in order. -/
  entries : List (String × String) := []
  deriving Inhabited, Repr, DecidableEq

namespace Environment

/-- The environment without variables. -/
def empty : Environment := ⟨[]⟩

/-- Replaces the value of the first variable called `name`; a new one goes to the end. -/
def setIn (name value : String) : List (String × String) → List (String × String)
  | [] => [(name, value)]
  | (n, v) :: rest => if n = name then (n, value) :: rest else (n, v) :: setIn name value rest

/-- The environment after `name` was set to `value`. -/
def set (env : Environment) (name value : String) : Environment :=
  ⟨setIn name value env.entries⟩

/-- The environment without the variable `name`. -/
def unset (env : Environment) (name : String) : Environment :=
  ⟨env.entries.filter fun v => v.1 ≠ name⟩

/-- The environment that results from setting the given variables one after another. -/
def ofList (given : List (String × String)) : Environment :=
  given.foldl (fun env v => env.set v.1 v.2) empty

/-- What follows `name=` in the stored text of a variable. -/
def storedAfter? (name : String) (entry : String × String) : Option (List Char) :=
  (name.toList ++ ['=']).isPrefixOf? (entry.1.toList ++ '=' :: entry.2.toList)

/-- The value found under `name`: the rest of the first stored text that begins with `name=`.
    The empty name, and a name with a NUL in it, are never found. -/
def lookup (env : Environment) (name : String) : Option String :=
  if name.isEmpty || name.toList.contains '\x00' then none
  else (env.entries.findSome? (storedAfter? name)).map String.ofList

end Environment

end Steward
