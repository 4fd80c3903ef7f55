import Steward.Number.Binary64

/-!
# YAML: values

What a document holds once its nodes are evaluated. `scalarText?` is the text of a value that has
no parts.

`load` of a document leaves this to a library for YAML.
-/

namespace Steward.Yaml

/-- A value. -/
inductive Value where
  /-- No value. -/
  | null
  /-- `true` or `false`. -/
  | bool (value : Bool)
  /-- A whole number. -/
  | int (value : Int)
  /-- A floating point number. -/
  | float (value : Binary64)
  /-- A text. -/
  | string (text : String)
  /-- A list of values. -/
  | sequence (items : List Value)
  /-- Keys with their values, in the order of the document. -/
  | mapping (entries : List (Value × Value))
  /-- A value with a tag of its own. -/
  | tagged (tag : String) (value : Value)
  deriving Repr, Inhabited

namespace Value

/-! ## Text -/

/-- The text of the number `digits · 10 ^ exponent`. A number from `10 ^ -5` to below `10 ^ 16` is
    written with a point, any other with an exponent. -/
def decimalText (digits : Nat) (exponent : Int) : List Char :=
  let ds := Decimal.natText digits
  let zeros (n : Int) : List Char := List.replicate n.toNat '0'
  let point : Int := ds.length + exponent
  if 0 ≤ exponent ∧ point ≤ 16 then ds ++ zeros exponent ++ ['.', '0']
  else if 0 < point ∧ point ≤ 16 then ds.take point.toNat ++ ['.'] ++ ds.drop point.toNat
  else if -5 < point ∧ point ≤ 0 then ['0', '.'] ++ zeros (-point) ++ ds
  else
    let fraction := ds.drop 1
    ds.take 1 ++ (if fraction = [] then [] else '.' :: fraction) ++
      ['e'] ++ Decimal.intText (point - 1)

/-- The text of a floating point number, from which it can be read back. -/
def floatText : Binary64 → List Char
  | .nan => ".nan".toList
  | .infinite negative => if negative then "-.inf".toList else ".inf".toList
  | .finite negative mantissa exponent =>
    let magnitude :=
      if mantissa = 0 then ['0', '.', '0']
      else
        let (digits, power) := Binary64.shortest mantissa exponent
        decimalText digits power
    if negative then '-' :: magnitude else magnitude

/-- The text of a value without parts and without a tag. -/
def scalarText? : Value → Option String
  | null => some ""
  | bool b => some (if b then "true" else "false")
  | int n => some (String.ofList (Decimal.intText n))
  | float x => some (String.ofList (floatText x))
  | string text => some text
  | sequence _ | mapping _ | tagged _ _ => none

/-! ## Equality of keys -/

/-- A tag without its `!`. -/
def bareTag (tag : String) : String :=
  match tag.toList with
  | '!' :: c :: rest => String.ofList (c :: rest)
  | _ => tag

mutual

/-- True if two values are the same key. The order of the entries of a mapping does not matter. -/
def same : Value → Value → Bool
  | null, null => true
  | bool a, bool b => a == b
  | int a, int b => a == b
  | float a, float b => a.sameValue b
  | string a, string b => a == b
  | sequence xs, sequence ys => sameItems xs ys
  | mapping xs, mapping ys => xs.length == ys.length && sameEntries xs ys
  | tagged a x, tagged b y => bareTag a == bareTag b && same x y
  | _, _ => false

/-- True if two lists hold the same values in the same order. -/
def sameItems : List Value → List Value → Bool
  | [], [] => true
  | x :: xs, y :: ys => same x y && sameItems xs ys
  | _, _ => false

/-- True if each of the first entries is among the second ones. -/
def sameEntries : List (Value × Value) → List (Value × Value) → Bool
  | [], _ => true
  | (k, v) :: xs, ys => (ys.any fun y => same k y.1 && same v y.2) && sameEntries xs ys

end

/-- True if no key comes twice. -/
def distinctKeys : List (Value × Value) → Bool
  | [] => true
  | (k, _) :: rest => rest.all (fun e => !same k e.1) && distinctKeys rest

end Value

end Steward.Yaml
