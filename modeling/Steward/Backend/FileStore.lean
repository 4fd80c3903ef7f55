import Steward.Backend.Lookup
import Steward.Key.Path
import Steward.Yaml.Document
import Steward.Yaml.Leaf

/-!
# The store of a document

A YAML document as pairs: each scalar in it is a value, and the segments that lead to it make up its
key. A key finds the pairs that are under it.

`read` is `load` of a document with its `flatten`, and `lookup` is `get_values` of the `FileStore`.
-/

namespace Steward.Backend.FileStore

/-- The kind of this backend. -/
def kind : String := "file"

/-- The key of a leaf: each segment behind a slash. A document that is itself a scalar has the root
    as its key. -/
def keyOf (path : List String) : String :=
  if path = [] then "/" else String.join (path.map ("/" ++ ·))

/-- The pairs of a document. If two leaves have one key, the last one counts. -/
def flatten (v : Yaml.Value) : Pairs := .ofList (v.leaves.map fun l => (keyOf l.path, l.text))

/-- Why a document cannot be read. -/
inductive DocumentError where
  /-- The file cannot be read. -/
  | unreadable (cause : IoError)
  /-- The file holds no document. -/
  | malformed
  deriving Repr

/-- The message of an error. -/
def DocumentError.message : DocumentError → String
  | unreadable cause => cause.message
  | malformed => "<yaml>"

/-- The error of a lookup for which the document cannot be read. -/
def DocumentError.ofLookup : DocumentError → LookupError
  | unreadable cause => .unavailable kind cause.message
  | malformed => .malformed kind malformed.message

/-- The pairs of the document in a file. -/
def read (world : World) (path : String) : Except DocumentError Pairs :=
  match world.files.readText path with
  | .error cause => .error (.unreadable cause)
  | .ok text =>
    match Yaml.Value.parse? text with
    | none => .error .malformed
    | some value => .ok (flatten value)

/-- The pairs that are under some key. -/
def select (all : Pairs) (keys : List String) : Pairs :=
  all.filter fun key _ => keys.any fun wanted => Key.under key wanted

/-- The answers of the document at a path, which is read anew for each lookup. -/
def lookup (path : String) : Lookup := fun world keys =>
  match read world path with
  | .error e => .error e.ofLookup
  | .ok all => .ok (select all keys)

end Steward.Backend.FileStore
