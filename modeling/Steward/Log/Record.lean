import Steward.Log.Settings
import Steward.Number.Decimal
import Steward.Text.Quoted

/-!
# Log records

A record has a level, a target that says which part of the program it comes from, a message and
named fields. As a line of text it is the level in five columns, the target, the message and the
fields, with texts in quotes.

`init` leaves the form of a line to a library.
-/

namespace Steward.Log

/-- The value of a field. -/
inductive FieldValue where
  /-- A text. -/
  | text (value : String)
  /-- A number. -/
  | number (value : Nat)
  deriving DecidableEq, Repr

/-- A record of the log. -/
structure Record where
  /-- Its weight. -/
  level : Level
  /-- The part of the program it comes from. -/
  target : String
  /-- What it says. -/
  message : String
  /-- The details, in order. -/
  fields : List (String × FieldValue) := []
  deriving DecidableEq, Repr

/-- The target of the program as a whole. -/
def programTarget : String := "resvisor"

/-- The target of a part of the program. -/
def partTarget (path : List String) : String := "::".intercalate (programTarget :: path)

/-- The text of a field. -/
def FieldValue.describe : FieldValue → String
  | text value => Text.quote value
  | number value => String.ofList (Decimal.natText value)

/-- A text with blanks in front, so that it fills at least `width` columns. -/
def alignRight (width : Nat) (text : String) : String :=
  String.ofList (List.replicate (width - text.length) ' ') ++ text

/-- A record as a line of text. -/
def Record.line (r : Record) : String :=
  alignRight 5 r.level.label ++ " " ++ r.target ++ ": " ++ r.message ++
    String.join (r.fields.map fun f => " " ++ f.1 ++ "=" ++ f.2.describe)

end Steward.Log
