import Steward.Yaml.Token

/-!
# YAML: nodes

The tree of nodes that the tokens of a document describe. Nothing in it is evaluated yet: a scalar
has its text, an alias what it refers to, a tag its full name. A node that is left out, such as the
value of a key with nothing behind it, is an empty plain scalar.

`load` of a document leaves this to a library for YAML.
-/

namespace Steward.Yaml

/-- What may stand in front of the content of a node. -/
structure Properties where
  /-- The name that aliases refer to. -/
  anchor : Option String := none
  /-- The full name of the tag. -/
  tag : Option (List UInt8) := none
  deriving Repr, DecidableEq, Inhabited

/-- The properties of a scalar: a lone `!` says nothing about it. -/
def Properties.ofScalar (p : Properties) : Properties :=
  if p.tag = some [33] then { p with tag := none } else p

/-- A node, whose aliases refer to others by an `α`. -/
inductive Node (α : Type) where
  /-- A reference to a node with an anchor. -/
  | alias (target : α)
  /-- A scalar; a plain one has no quotes and is no block. -/
  | scalar (properties : Properties) (text : String) (plain : Bool)
  /-- A sequence. -/
  | sequence (properties : Properties) (items : List (Node α))
  /-- A mapping, in the order of the text. -/
  | mapping (properties : Properties) (entries : List (Node α × Node α))
  deriving Repr, Inhabited

namespace Node

/-- A node that was left out. -/
def empty {α : Type} : Node α := .scalar {} "" true

/-- The handles of tags with what they stand for. -/
abbrev Handles := List (String × List UInt8)

/-- The handles that every document has. -/
def standardHandles : Handles :=
  [("!", [33]), ("!!", "tag:yaml.org,2002:".toUTF8.data.toList)]

/-! ## Properties -/

/-- The full name of a tag. -/
def tagName? (handles : Handles) (handle : String) (suffix : List UInt8) :
    Option (List UInt8) :=
  if handle = "" then some suffix else (handles.lookup handle).map (· ++ suffix)

/-- The anchor and the tag in front of a node, in any order, and the tokens behind them. -/
def properties? (handles : Handles) (tokens : List Token) : Option (Properties × List Token) :=
  match tokens with
  | .anchor name :: .tag handle suffix :: rest =>
    (tagName? handles handle suffix).map fun tag => (⟨some name, some tag⟩, rest)
  | .anchor name :: rest => some (⟨some name, none⟩, rest)
  | .tag handle suffix :: .anchor name :: rest =>
    (tagName? handles handle suffix).map fun tag => (⟨some name, some tag⟩, rest)
  | .tag handle suffix :: rest =>
    (tagName? handles handle suffix).map fun tag => (⟨none, some tag⟩, rest)
  | _ => some ({}, tokens)

/-! ## Content -/

mutual

/-- Reads a node. Block collections are read if `block` is set, and a block sequence that is no
    deeper than the key in front of it if `indentless` is set. -/
def ofTokens? (handles : Handles) (block indentless : Bool) (tokens : List Token) :
    Option (Node String × List Token) :=
  match properties? handles tokens with
  | none => none
  | some (p, next) =>
    if next.length ≤ tokens.length then content? handles block indentless p next else none
termination_by 7 * tokens.length + 4

/-- Reads the content of a node with the given properties. A node that has some may do without
    content. -/
def content? (handles : Handles) (block indentless : Bool) (p : Properties)
    (tokens : List Token) : Option (Node String × List Token) :=
  match tokens, block, indentless with
  | .alias name :: rest, _, _ =>
    some (if p = {} then (.alias name, rest) else (.scalar p "" true, tokens))
  | .scalar text plain :: rest, _, _ => some (.scalar p.ofScalar text plain, rest)
  | .flowSequenceStart :: rest, _, _ =>
    (flowItems? handles true rest).map fun r => (.sequence p r.1, r.2)
  | .flowMappingStart :: rest, _, _ =>
    (flowEntries? handles true rest).map fun r => (.mapping p r.1, r.2)
  | .blockSequenceStart :: rest, true, _ =>
    (blockItems? handles rest).map fun r => (.sequence p r.1, r.2)
  | .blockMappingStart :: rest, true, _ =>
    (blockEntries? handles rest).map fun r => (.mapping p r.1, r.2)
  | .blockEntry :: rest, _, true =>
    (indentlessItems? handles (.blockEntry :: rest)).map fun r => (.sequence p r.1, r.2)
  | _, _, _ => if p = {} then none else some (.scalar p "" true, tokens)
termination_by 7 * tokens.length + 3

/-- Reads a node, which is left out if one of the tokens `stops` comes instead. -/
def optional? (handles : Handles) (stops : List Token) (block indentless : Bool)
    (tokens : List Token) : Option (Node String × List Token) :=
  if (tokens.head?.map stops.contains).getD false then some (empty, tokens)
  else ofTokens? handles block indentless tokens
termination_by 7 * tokens.length + 5

/-- Reads the value behind a key, which is left out if there is no `:`. -/
def value? (handles : Handles) (stops : List Token) (block : Bool) (tokens : List Token) :
    Option (Node String × List Token) :=
  match tokens with
  | .value :: rest => optional? handles stops block block rest
  | _ => some (empty, tokens)
termination_by 7 * tokens.length

/-- Reads the items of a block sequence with the end of it. -/
def blockItems? (handles : Handles) (tokens : List Token) : Option (List (Node String) × List Token) :=
  match tokens with
  | .blockEnd :: rest => some ([], rest)
  | .blockEntry :: rest => do
    let (item, next) ← optional? handles [.blockEntry, .blockEnd] true false rest
    if next.length ≤ rest.length then
      let (items, behind) ← blockItems? handles next
      pure (item :: items, behind)
    else none
  | _ => none
termination_by 7 * tokens.length

/-- Reads the items of a block sequence that has no end of its own. -/
def indentlessItems? (handles : Handles) (tokens : List Token) :
    Option (List (Node String) × List Token) :=
  match tokens with
  | .blockEntry :: rest => do
    let (item, next) ← optional? handles [.blockEntry, .key, .value, .blockEnd] true false rest
    if next.length ≤ rest.length then
      let (items, behind) ← indentlessItems? handles next
      pure (item :: items, behind)
    else none
  | _ => some ([], tokens)
termination_by 7 * tokens.length

/-- Reads the entries of a block mapping with the end of it. -/
def blockEntries? (handles : Handles) (tokens : List Token) :
    Option (List (Node String × Node String) × List Token) :=
  match tokens with
  | .blockEnd :: rest => some ([], rest)
  | .key :: rest => do
    let stops := [.key, .value, .blockEnd]
    let (key, next) ← optional? handles stops true true rest
    if next.length ≤ rest.length then
      let (value, next) ← value? handles stops true next
      if next.length ≤ rest.length then
        let (entries, behind) ← blockEntries? handles next
        pure ((key, value) :: entries, behind)
      else none
    else none
  | _ => none
termination_by 7 * tokens.length
decreasing_by all_goals (simp only [List.length_cons]; omega)

/-- Reads the items of a flow sequence with the end of it. A key makes a mapping with one entry of
    an item. -/
def flowItems? (handles : Handles) (first : Bool) (tokens : List Token) :
    Option (List (Node String) × List Token) :=
  match tokens, first with
  | .flowSequenceEnd :: rest, _ => some ([], rest)
  | .flowEntry :: rest, false => flowItem? handles rest
  | other, true => flowItem? handles other
  | _, false => none
termination_by 7 * tokens.length + 6

/-- Reads an item of a flow sequence with those behind it. Behind a `,` there may be none. -/
def flowItem? (handles : Handles) (tokens : List Token) : Option (List (Node String) × List Token) :=
  match tokens with
  | .flowSequenceEnd :: rest => some ([], rest)
  | .key :: rest => do
    let (key, next) ←
      match rest with
      | .value :: more | .flowEntry :: more | .flowSequenceEnd :: more => some (empty, more)
      | other => ofTokens? handles false false other
    if next.length ≤ rest.length then
      let (value, next) ← value? handles [.flowEntry, .flowSequenceEnd] false next
      if next.length ≤ rest.length then
        let (items, behind) ← flowItems? handles false next
        pure (.mapping {} [(key, value)] :: items, behind)
      else none
    else none
  | other => do
    let (item, next) ← ofTokens? handles false false other
    if next.length < other.length then
      let (items, behind) ← flowItems? handles false next
      pure (item :: items, behind)
    else none
termination_by 7 * tokens.length + 5

/-- Reads the entries of a flow mapping with the end of it. A key without a mark of its own has no
    value. -/
def flowEntries? (handles : Handles) (first : Bool) (tokens : List Token) :
    Option (List (Node String × Node String) × List Token) :=
  match tokens, first with
  | .flowMappingEnd :: rest, _ => some ([], rest)
  | .flowEntry :: rest, false => flowEntry? handles rest
  | other, true => flowEntry? handles other
  | _, false => none
termination_by 7 * tokens.length + 6

/-- Reads an entry of a flow mapping with those behind it. Behind a `,` there may be none. -/
def flowEntry? (handles : Handles) (tokens : List Token) :
    Option (List (Node String × Node String) × List Token) :=
  match tokens with
  | .flowMappingEnd :: rest => some ([], rest)
  | .key :: rest => do
    let (key, next) ← optional? handles [.value, .flowEntry, .flowMappingEnd] false false rest
    if next.length ≤ rest.length then
      let (value, next) ← value? handles [.flowEntry, .flowMappingEnd] false next
      if next.length ≤ rest.length then
        let (entries, behind) ← flowEntries? handles false next
        pure ((key, value) :: entries, behind)
      else none
    else none
  | other => do
    let (key, next) ← ofTokens? handles false false other
    if next.length < other.length then
      let (entries, behind) ← flowEntries? handles false next
      pure ((key, empty) :: entries, behind)
    else none
termination_by 7 * tokens.length + 5

end

/-! ## Documents -/

/-- Takes in the directives in front of a document. Each may be given once, the version 1.1 or
    1.2. -/
def directives? (version : Bool) (handles : Handles) (tokens : List Token) :
    Option (Handles × List Token) :=
  match tokens with
  | .version major minor :: rest =>
    if version ∨ major ≠ 1 ∨ (minor ≠ 1 ∧ minor ≠ 2) then none
    else directives? true handles rest
  | .tagHandle handle meaning :: rest =>
    if (handles.lookup handle).isSome then none
    else directives? version (handles ++ [(handle, meaning)]) rest
  | _ => some (handles, tokens)

/-- The root node of a document behind its start, with the tokens behind it. -/
def root? (handles : Handles) (tokens : List Token) : Option (Node String × List Token) :=
  match tokens with
  | [] | .version .. :: _ | .tagHandle .. :: _ | .documentStart :: _ | .documentEnd :: _ =>
    some (empty, tokens)
  | _ => ofTokens? (handles ++ standardHandles) true false tokens

/-- The root node of a text with at most one document; an empty node if there is none. Only marks
    of the end may follow the document. -/
def ofDocument? (tokens : List Token) : Option (Node String) := do
  let (handles, next) ← directives? false [] tokens
  let (root, behind) ←
    match next with
    | .documentStart :: rest => root? handles rest
    | [] => if tokens = [] then some (empty, []) else none
    | _ => if next = tokens then ofTokens? standardHandles true false tokens else none
  if behind.all (· == .documentEnd) then some root else none

end Node

end Steward.Yaml
