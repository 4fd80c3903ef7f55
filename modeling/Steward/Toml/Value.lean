import Steward.Number.Binary64

/-!
# TOML values

The data of a TOML document. The fields of a table keep the order in which they were defined, and
no two have the same name.

`parse_file` leaves this to a library for TOML.
-/

namespace Steward.Toml

/-- A TOML value. -/
inductive Value where
  /-- Text. -/
  | string (text : String)
  /-- A whole number of 64 bits. -/
  | integer (n : Int)
  /-- A floating point number. -/
  | float (x : Binary64)
  /-- A truth value. -/
  | boolean (b : Bool)
  /-- A date, a time of day or both, as written. -/
  | moment (text : String)
  /-- A list of values. -/
  | array (items : List Value)
  /-- Named values. -/
  | table (fields : List (String × Value))

/-- The fields of a table, in order. -/
abbrev Table := List (String × Value)

end Steward.Toml
