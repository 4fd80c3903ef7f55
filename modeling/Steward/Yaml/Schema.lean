import Steward.Yaml.Value

/-!
# YAML: the values of scalars

A plain scalar without a tag is what it looks like: null, a truth value, a number or else a text. A
scalar with a standard tag has to look like what the tag says.

`load` of a document leaves this to a library for YAML.
-/

namespace Steward.Yaml

/-! ## Whole numbers -/

/-- True if a text is an optional sign and digits that start with a needless zero. -/
def hasLeadingZero (text : List Char) : Bool :=
  let digits := match text with
    | '-' :: rest | '+' :: rest => rest
    | _ => text
  1 < digits.length && digits.head? == some '0' && digits.all Char.isDigit

/-- The base that a text starts with, and the text behind it. -/
def basePrefix? : List Char → Option (Nat × List Char)
  | '0' :: 'x' :: rest => some (16, rest)
  | '0' :: 'o' :: rest => some (8, rest)
  | '0' :: 'b' :: rest => some (2, rest)
  | _ => none

/-- Reads a number below `limit` in the given base. -/
def readBelow? (limit base : Nat) (text : List Char) : Option Nat :=
  (Decimal.readNat? base text).filter (· < limit)

/-- Reads a number with an optional plus sign that is below `limit`. -/
def readUnsigned? (limit : Nat) (text : List Char) : Option Nat :=
  let digits := match text with
    | '+' :: rest => rest
    | _ => text
  match (basePrefix? digits).bind fun (base, rest) => readBelow? limit base rest with
  | some n => some n
  | none => if hasLeadingZero text then none else readBelow? limit 10 digits

/-- Reads a number with a minus sign whose size is at most `limit`. -/
def readNegative? (limit : Nat) (text : List Char) : Option Nat :=
  match text with
  | '-' :: digits =>
    match (basePrefix? digits).bind fun (base, rest) => readBelow? (limit + 1) base rest with
    | some n => some n
    | none => if hasLeadingZero text then none else readBelow? (limit + 1) 10 digits
  | _ => none

/-- What a text is as a whole number. -/
inductive IntReading where
  /-- A number. -/
  | int (value : Int)
  /-- A number of more than 64 bits, for which there is no value. -/
  | tooLarge
  /-- No number, or one of more than 128 bits. -/
  | other

/-- Reads a whole number. -/
def readInt (text : List Char) : IntReading :=
  match readUnsigned? (1 <<< 64) text, readNegative? (1 <<< 63) text with
  | some n, _ => .int n
  | none, some n => .int (-n)
  | none, none =>
    if (readUnsigned? (1 <<< 128) text).isSome || (readNegative? (1 <<< 127) text).isSome then .tooLarge
    else .other

/-! ## Floating point numbers -/

/-- Reads a floating point number. A decimal has to be finite. -/
def readFloat? (text : List Char) : Option Binary64 :=
  let unsigned := match text with
    | '+' :: '+' :: _ | '+' :: '-' :: _ => []
    | '+' :: rest => rest
    | _ => text
  if [".inf", ".Inf", ".INF"].contains (String.ofList unsigned) then some (.infinite false)
  else if ["-.inf", "-.Inf", "-.INF"].contains (String.ofList text) then some (.infinite true)
  else if [".nan", ".NaN", ".NAN"].contains (String.ofList text) then some .nan
  else ((Decimal.read? unsigned).map Binary64.ofDecimal).filter Binary64.isFinite

/-! ## Other scalars -/

/-- True if a text stands for null. -/
def readsNull (text : String) : Bool := ["null", "Null", "NULL", "~"].contains text

/-- Reads a truth value. -/
def readBool? (text : String) : Option Bool :=
  if ["true", "True", "TRUE"].contains text then some true
  else if ["false", "False", "FALSE"].contains text then some false
  else none

/-- The value of a plain scalar without a tag, or `none` if it is a number that is too large. -/
def Value.ofPlain? (text : String) : Option Value :=
  if text = "" || readsNull text then some .null
  else
    match readBool? text, readInt text.toList with
    | some b, _ => some (.bool b)
    | none, .int n => some (.int n)
    | none, .tooLarge => none
    | none, .other =>
      match if hasLeadingZero text.toList then none else readFloat? text.toList with
      | some x => some (.float x)
      | none => some (.string text)

/-- The value of a scalar without a tag. -/
def Value.ofUntagged? (text : String) (plain : Bool) : Option Value :=
  if plain then ofPlain? text else some (.string text)

/-- A standard tag. -/
def standardTag (name : String) : List UInt8 :=
  ("tag:yaml.org,2002:" ++ name).toUTF8.data.toList

/-- The value of a scalar whose tag does not start with `!`. -/
def Value.ofTagged? (tag : List UInt8) (text : String) : Option Value :=
  if tag = standardTag "bool" then (readBool? text).map .bool
  else if tag = standardTag "int" then
    match readInt text.toList with
    | .int n => some (.int n)
    | _ => none
  else if tag = standardTag "float" then (readFloat? text.toList).map .float
  else if tag = standardTag "null" then if readsNull text then some .null else none
  else some (.string text)

/-- The tag that a value keeps: one that starts with `!`, without it unless it stands alone. -/
def keptTag? : List UInt8 → Option String
  | 33 :: rest => String.fromUTF8? ⟨(if rest = [] then [33] else rest).toArray⟩
  | _ => none

/-- The value of a scalar. -/
def Value.ofScalar? (tag : Option (List UInt8)) (text : String) (plain : Bool) : Option Value :=
  match tag with
  | none => ofUntagged? text plain
  | some tag =>
    match keptTag? tag with
    | some kept => (ofUntagged? text plain).map (.tagged kept)
    | none => if tag.head? = some 33 then ofUntagged? text plain else ofTagged? tag text

end Steward.Yaml
