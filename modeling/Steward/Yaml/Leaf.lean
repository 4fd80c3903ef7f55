import Steward.Yaml.Value

/-!
# YAML: leaves

The leaves of a value are its scalars, each with the segments that lead to it: the texts of the keys
and the positions in sequences. A key that has parts or a tag of its own has no text, and what it
leads to has no leaves. The tag of a value makes no difference.

`Value.leaves` is `flatten`, and the texts are those of `scalar`.
-/

namespace Steward.Yaml

/-- A scalar inside a value. -/
structure Leaf where
  /-- The segments that lead to it. -/
  path : List String
  /-- Its text. -/
  text : String
  deriving DecidableEq, Repr

/-- A leaf one level higher. -/
def Leaf.under (segment : String) (l : Leaf) : Leaf := { l with path := segment :: l.path }

mutual

/-- The leaves of a value, in the order of the document. -/
def Value.leaves : Value → List Leaf
  | .null => [⟨[], ""⟩]
  | .bool b => [⟨[], if b then "true" else "false"⟩]
  | .int n => [⟨[], String.ofList (Decimal.intText n)⟩]
  | .float x => [⟨[], String.ofList (Value.floatText x)⟩]
  | .string text => [⟨[], text⟩]
  | .sequence items => itemLeaves 0 items
  | .mapping entries => entryLeaves entries
  | .tagged _ value => value.leaves

/-- The leaves of the items of a sequence from position `i` on. -/
def itemLeaves (i : Nat) : List Value → List Leaf
  | [] => []
  | v :: rest =>
    v.leaves.map (Leaf.under (String.ofList (Decimal.natText i))) ++ itemLeaves (i + 1) rest

/-- The leaves of the entries of a mapping. -/
def entryLeaves : List (Value × Value) → List Leaf
  | [] => []
  | (k, v) :: rest =>
    (match k.scalarText? with
      | some segment => v.leaves.map (Leaf.under segment)
      | none => []) ++ entryLeaves rest

end

end Steward.Yaml
