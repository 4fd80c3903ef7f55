import Steward.Toml.Statement

/-!
# TOML: documents

The statements of a document are carried out from top to bottom. Those under a header fill a table
of their own, the open section, which joins the document when the next header comes or the document
ends. So a table that a longer header implied takes, once it has a header of its own, its place
behind the tables defined in the meantime.

`parse_file` leaves this to a library for TOML (`from_str`).
-/

namespace Steward.Toml

/-- Where the fields of the open section will go. -/
inductive Destination where
  /-- The section without a header is the document itself. -/
  | root
  /-- The table `name` in the table at `path`. -/
  | table (path : List String) (name : String)
  /-- A new element of the array of tables `name` in the table at `path`. -/
  | element (path : List String) (name : String)

/-- A document under construction. -/
structure Draft where
  /-- The sections that are complete. -/
  closed : Fields
  /-- Where the open section goes. -/
  destination : Destination
  /-- The fields of the open section. -/
  body : Fields

namespace Draft

/-- The draft before the first statement. -/
def empty : Draft := ⟨[], .root, []⟩

/-- Changes the table at a path of a header. -/
def changeAt? (fields : Fields) (path : List String) (change : Fields → Option Fields) :
    Option Fields :=
  fields.changeAt? false (fun _ target => change target) path .header

/-- The document with the open section in its place. -/
def close? (d : Draft) : Option Fields :=
  match d.destination with
  | .root => some d.body
  | .table path name =>
    changeAt? d.closed path fun target =>
      match target.lookup name with
      | none => some (target ++ [(name, .table .header d.body)])
      | some _ => none
  | .element path name =>
    changeAt? d.closed path fun target =>
      match target.lookup name with
      | some (.tables elements) => some (target.replace name (.tables (elements ++ [d.body])))
      | none => some (target ++ [(name, .tables [d.body])])
      | some _ => none

/-- The fields that a table starts with under its own header: none, or those that longer headers
    have put into it. Any other table or value of that name is an error. -/
def reopened? : Option Item → Option Fields
  | none => some []
  | some (.table .implied inner) => some inner
  | some _ => none

/-- The item called `name` in the table at `path`, if there is one. -/
def find? : List String → String → Fields → Option Item
  | [], name, fields => fields.lookup name
  | key :: path, name, fields =>
    match fields.lookup key with
    | some (.table _ inner) => find? path name inner
    | some (.tables elements) => elements.getLast?.bind (find? path name)
    | _ => none

/-- Carries out one statement. -/
def step? (d : Draft) : Statement → Option Draft
  | .assign path name v =>
    (d.body.insert? path name v).map fun fields => { d with body := fields }
  | .openTable path name => do
    let closed ← d.close?
    let inner ← reopened? (find? path name closed)
    let closed ← changeAt? closed path fun target => some (target.filter (·.1 ≠ name))
    pure ⟨closed, .table path name, inner⟩
  | .openElement path name => do
    let closed ← d.close?
    let closed ← changeAt? closed path fun target =>
      match target.lookup name with
      | none => some (target ++ [(name, .tables [])])
      | some (.tables _) => some target
      | some _ => none
    pure ⟨closed, .element path name, []⟩

end Draft

/-- A byte order mark at the very beginning is no part of the document. -/
def dropByteOrderMark : List Char → List Char
  | c :: rest => if c = '\uFEFF' then rest else c :: rest
  | [] => []

/-- The table that a document defines, or `none` if the document is malformed. -/
def parse? (text : String) : Option Table := do
  let statements ← statements? (dropByteOrderMark text.toList)
  let draft ← statements.foldlM Draft.step? Draft.empty
  let fields ← draft.close?
  pure (Fields.toTable fields)

end Steward.Toml
