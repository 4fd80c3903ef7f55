import Steward.Toml.Lexical

/-!
# TOML: statements

A document is a list of statements, one a line: a value for a path of keys, or the header of a
table or of an element of an array of tables. `statements?` reads them. Values may hold inline
tables, whose fields are themselves values for paths of keys; `Fields.insert?` states when such a
field may join the ones before it.

`parse_file` leaves this to a library for TOML.
-/

namespace Steward.Toml

/-! ## Fields under construction -/

/-- How a table came to be. -/
inductive Origin where
  /-- By a header of its own, or as an element of an array of tables. -/
  | header
  /-- As a part of the path of a longer header. -/
  | implied
  /-- As a part of the path of a dotted key. -/
  | dotted
  deriving DecidableEq, Repr

/-- What a name stands for while a document is read. -/
inductive Item where
  /-- A value, complete in itself. -/
  | value (v : Value)
  /-- A table that may still grow. -/
  | table (origin : Origin) (fields : List (String × Item))
  /-- The elements of an array of tables, of which the last may still grow. -/
  | tables (elements : List (List (String × Item)))

/-- Named items, in the order of their definition. -/
abbrev Fields := List (String × Item)

/-- Replaces the item called `name`. -/
def Fields.replace (fields : Fields) (name : String) (item : Item) : Fields :=
  fields.map fun f => if f.1 = name then (name, item) else f

/-- Applies `change` to the last list of a list of lists. -/
def changeLast? {α : Type} (change : List α → Option (List α)) (elements : List (List α)) :
    Option (List (List α)) :=
  match elements.getLast? with
  | some last => (change last).map fun new => elements.dropLast ++ [new]
  | none => none

/-- Changes the table at the end of a path, creating the tables on the way that are missing. A value
    on the way is an error, and so is a table with a header of its own when the path belongs to a
    dotted key. The change is told how the table came to be. -/
def Fields.changeAt? (isDotted : Bool) (change : Origin → Fields → Option Fields) :
    List String → Origin → Fields → Option Fields
  | [], origin, fields => change origin fields
  | name :: path, _, fields =>
    match fields.lookup name with
    | none =>
      let origin := if isDotted then .dotted else .implied
      (changeAt? isDotted change path origin []).map fun new =>
        fields ++ [(name, .table origin new)]
    | some (.value _) => none
    | some (.table origin inner) =>
      if isDotted ∧ origin = .header then none
      else (changeAt? isDotted change path origin inner).map fun new =>
        fields.replace name (.table origin new)
    | some (.tables elements) =>
      (changeLast? (changeAt? isDotted change path .header) elements).map fun new =>
        fields.replace name (.tables new)

/-- Gives a value to the last of a path of keys. The name must be new, and a dotted key only adds to
    tables that dotted keys made. -/
def Fields.insert? (fields : Fields) (path : List String) (name : String) (v : Value) :
    Option Fields :=
  fields.changeAt? true (fun origin target =>
    if path ≠ [] ∧ origin ≠ .dotted then none
    else if (target.lookup name).isSome then none
    else some (target ++ [(name, .value v)])) path .header

mutual

/-- The finished value of an item. -/
def Item.toValue : Item → Value
  | .value v => v
  | .table _ fields => .table (Fields.toTable fields)
  | .tables elements => .array (elementValues elements)

/-- The finished fields of a table. -/
def Fields.toTable : List (String × Item) → Table
  | [] => []
  | (name, item) :: rest => (name, item.toValue) :: Fields.toTable rest

/-- The finished elements of an array of tables. -/
def elementValues : List (List (String × Item)) → List Value
  | [] => []
  | fields :: rest => .table (Fields.toTable fields) :: elementValues rest

end

/-! ## Values -/

-- the measures are numbers instead of pairs, so that closed terms can be evaluated
mutual

/-- A value, in which arrays and inline tables may lie at most `nesting` deep. -/
def value? (nesting : Nat) (text : List Char) : Option (Value × List Char) :=
  match text with
  | [] => none
  | c :: rest =>
    if c = '"' ∨ c = '\'' then
      (string? text).map fun r => (.string (String.ofList r.1), r.2)
    else if c = '[' then
      match nesting with
      | 0 => none
      | nesting + 1 =>
        match skipLines? rest with
        | some (']' :: behind) => some (.array [], behind)
        | some next =>
          if next.length ≤ rest.length then
            (elements? nesting next).map fun r => (.array r.1, r.2)
          else none
        | none => none
    else if c = '{' then
      match nesting with
      | 0 => none
      | nesting + 1 =>
        match skipWs rest with
        | '}' :: behind => some (.table [], behind)
        | next =>
          if next.length ≤ rest.length then
            (inlineFields? nesting [] next).map fun r => (.table (Fields.toTable r.1), r.2)
          else none
    else if c = 't' then
      if rest.take 3 = ['r', 'u', 'e'] then some (.boolean true, rest.drop 3) else none
    else if c = 'f' then
      if rest.take 4 = ['a', 'l', 's', 'e'] then some (.boolean false, rest.drop 4) else none
    else if c.isDigit ∨ c = '+' ∨ c = '-' ∨ c = 'i' ∨ c = 'n' then numberOrMoment? text
    else none
termination_by 2 * text.length

/-- The elements of an array from its first element to its closing bracket. -/
def elements? (nesting : Nat) (text : List Char) : Option (List Value × List Char) :=
  match value? nesting text with
  | none => none
  | some (v, behind) =>
    match skipLines? behind with
    | some (']' :: rest) => some ([v], rest)
    | some (',' :: rest) =>
      match skipLines? rest with
      | some (']' :: behind) => some ([v], behind)
      | some next =>
        if next.length < text.length then
          (elements? nesting next).map fun r => (v :: r.1, r.2)
        else none
      | none => none
    | _ => none
termination_by 2 * text.length + 1

/-- The fields of an inline table from its first key to its closing brace, added to `fields`. -/
def inlineFields? (nesting : Nat) (fields : Fields) (text : List Char) :
    Option (Fields × List Char) :=
  match keyPath? text with
  | some (path, '=' :: behind) =>
    let next := skipWs behind
    if next.length < text.length then
      match value? nesting next with
      | none => none
      | some (v, behind) =>
        match path.getLast?.bind fun name => fields.insert? path.dropLast name v with
        | none => none
        | some fields =>
          match skipWs behind with
          | '}' :: rest => some (fields, rest)
          | ',' :: rest =>
            if rest.length < text.length then inlineFields? nesting fields rest else none
          | _ => none
    else none
  | _ => none
termination_by 2 * text.length + 1
decreasing_by
  · have hnext : (skipWs behind).length < text.length := ‹_›
    omega
  · omega

end

/-! ## Lines -/

/-- One line of a document. -/
inductive Statement where
  /-- A value for the key `name` in the table at `path`. -/
  | assign (path : List String) (name : String) (v : Value)
  /-- The header of the table `name` in the table at `path`. -/
  | openTable (path : List String) (name : String)
  /-- The header of a new element of the array of tables `name` in the table at `path`. -/
  | openElement (path : List String) (name : String)

/-- Splits a path into the tables on the way and the last key. -/
def splitPath? (path : List String) : Option (List String × String) :=
  path.getLast?.map (path.dropLast, ·)

/-- The statement at the beginning of the text, and the text behind its line. -/
def statement? (text : List Char) : Option (Statement × List Char) :=
  match text with
  | '[' :: '[' :: rest =>
    match keyPath? rest with
    | some (keys, ']' :: ']' :: behind) => do
      let (path, name) ← splitPath? keys
      let next ← lineEnd? behind
      pure (.openElement path name, next)
    | _ => none
  | '[' :: rest =>
    match keyPath? rest with
    | some (keys, ']' :: behind) => do
      let (path, name) ← splitPath? keys
      let next ← lineEnd? behind
      pure (.openTable path name, next)
    | _ => none
  | _ =>
    match keyPath? text with
    | some (keys, '=' :: behind) => do
      let (path, name) ← splitPath? keys
      let (v, behind) ← value? nestingLimit (skipWs behind)
      let next ← lineEnd? behind
      pure (.assign path name v, next)
    | _ => none

/-- The statements of a document. -/
def statements? (text : List Char) : Option (List Statement) :=
  match skipWs text with
  | [] => some []
  | c :: rest =>
    if c = '#' ∨ c = '\n' ∨ c = '\r' then
      match lineEnd? (c :: rest) with
      | some next => if next.length < text.length then statements? next else none
      | none => none
    else
      match statement? (c :: rest) with
      | some (s, next) =>
        if next.length < text.length then (statements? next).map (s :: ·) else none
      | none => none
termination_by text.length

end Steward.Toml
