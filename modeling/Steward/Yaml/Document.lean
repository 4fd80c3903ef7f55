import Steward.Yaml.Node
import Steward.Yaml.Schema
import Steward.Yaml.Token.Lexer

/-!
# YAML: documents

`Value.parse?` is the value of a text with one document. Its nodes are linked first: each alias
gets the number of the anchor it refers to. Then they are evaluated, with the target of an alias in
place of the alias. A document may be nested 128 collections deep, and there is a limit on how often
an alias is followed, so that a short text cannot stand for a huge value.

`load` of a document leaves this to a library for YAML (`from_str`).
-/

namespace Steward.Yaml

/-! ## Aliases -/

/-- What is known about the anchors of the nodes that were passed. Nodes are counted as they begin;
    an anchor gets as its number the count of different names that came before it. -/
structure Links where
  /-- The number of nodes. -/
  count : Nat := 0
  /-- The number that each name stands for now. -/
  names : List (String × Nat) := []
  /-- The place among all nodes of the last anchor with a number. -/
  places : List (Nat × Nat) := []
  /-- The nodes with an anchor at each place. -/
  nodes : List (Nat × Node Nat) := []

namespace Links

/-- Passes the start of a node. -/
def enter (s : Links) (p : Properties) : Links :=
  match p.anchor with
  | none => { s with count := s.count + 1 }
  | some name =>
    let number := s.names.length
    { s with
      count := s.count + 1
      names := (name, number) :: s.names.filter (·.1 != name)
      places := (number, s.count) :: s.places }

/-- Passes the end of a node that began as number `place`. -/
def leave (s : Links) (place : Nat) (p : Properties) (n : Node Nat) : Node Nat × Links :=
  (n, if p.anchor.isSome then { s with nodes := (place, n) :: s.nodes } else s)

/-- The node that a number refers to. -/
def target? (s : Links) (number : Nat) : Option (Node Nat) :=
  (s.places.lookup number).bind fun place => s.nodes.lookup place

end Links

mutual

/-- Replaces the names of aliases by numbers. -/
def Node.link? : Node String → Links → Option (Node Nat × Links)
  | .alias name, s =>
    (s.names.lookup name).map fun number => (.alias number, { s with count := s.count + 1 })
  | .scalar p text plain, s => some ((s.enter p).leave s.count p (.scalar p text plain))
  | .sequence p items, s => do
    let (items, s') ← linkItems? items (s.enter p)
    pure (s'.leave s.count p (.sequence p items))
  | .mapping p entries, s => do
    let (entries, s') ← linkEntries? entries (s.enter p)
    pure (s'.leave s.count p (.mapping p entries))

/-- Replaces the names of aliases in the items of a sequence. -/
def linkItems? : List (Node String) → Links → Option (List (Node Nat) × Links)
  | [], s => some ([], s)
  | n :: rest, s => do
    let (n, s) ← n.link? s
    let (rest, s) ← linkItems? rest s
    pure (n :: rest, s)

/-- Replaces the names of aliases in the entries of a mapping. -/
def linkEntries? :
    List (Node String × Node String) → Links → Option (List (Node Nat × Node Nat) × Links)
  | [], s => some ([], s)
  | (k, v) :: rest, s => do
    let (k, s) ← k.link? s
    let (v, s) ← v.link? s
    let (rest, s) ← linkEntries? rest s
    pure ((k, v) :: rest, s)

end

mutual

/-- The number of marks in a tree: one for a scalar or an alias, two for a collection, beside those
    of its parts. -/
def Node.markCount : Node Nat → Nat
  | .alias _ => 1
  | .scalar .. => 1
  | .sequence _ items => 2 + itemMarkCount items
  | .mapping _ entries => 2 + entryMarkCount entries

/-- The number of marks in the items of a sequence. -/
def itemMarkCount : List (Node Nat) → Nat
  | [] => 0
  | n :: rest => n.markCount + itemMarkCount rest

/-- The number of marks in the entries of a mapping. -/
def entryMarkCount : List (Node Nat × Node Nat) → Nat
  | [] => 0
  | (k, v) :: rest => k.markCount + v.markCount + entryMarkCount rest

end

/-! ## Evaluation -/

/-- A computation that may fail, and that counts down how often an alias may still be followed. -/
abbrev Evaluation (α : Type) := StateT Nat Option α

/-- A value with the tag of its node, if it keeps one. -/
def Value.withTag (p : Properties) (v : Value) : Value :=
  match p.tag.bind keptTag? with
  | some tag => .tagged tag v
  | none => v

/-- The value of a node that is no alias, where `inner` evaluates the nodes inside, if collections
    are allowed here. -/
def Node.evaluateContent (inner : Option (Node Nat → Evaluation Value)) :
    Node Nat → Evaluation Value
  | .alias _ => failure
  | .scalar p text plain => liftM (Value.ofScalar? p.tag text plain)
  | .sequence p items => do
    let inner ← liftM inner
    let items ← items.mapM inner
    pure (Value.withTag p (.sequence items))
  | .mapping p entries => do
    let inner ← liftM inner
    let entries ← entries.mapM fun (k, v) => do
      let k ← inner k
      let v ← inner v
      pure (k, v)
    if Value.distinctKeys entries then pure (Value.withTag p (.mapping entries)) else failure

/-- The value of a node. -/
def Node.evaluateWith (links : Links) (inner : Option (Node Nat → Evaluation Value)) :
    Node Nat → Evaluation Value
  | .alias number => do
    match ← get with
    | 0 => failure
    | left + 1 =>
      set left
      evaluateContent inner (← liftM (links.target? number))
  | n => evaluateContent inner n

/-- The value of a node that may be nested `depth` collections deep. -/
def Node.evaluate (links : Links) : (depth : Nat) → Node Nat → Evaluation Value
  | 0 => evaluateWith links none
  | depth + 1 => evaluateWith links (some (evaluate links depth))

/-- The value of the document in a text; null if the text holds none. -/
def Value.parse? (text : String) : Option Value := do
  let root ← Node.ofDocument? (← tokens? text)
  let (root, links) ← root.link? {}
  let (value, _) ← (root.evaluate links 128).run (100 * root.markCount)
  pure value

end Steward.Yaml
