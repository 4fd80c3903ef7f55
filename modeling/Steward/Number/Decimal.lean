/-!
# Decimal numbers

A decimal is a sign, a whole number of digits and a power of ten. `readUnsigned?` reads the usual
written form: digits with at most one point among or beside them, at least one digit, and an
optional exponent.

`parse_file`, and `load` of a document, leave this to the libraries for TOML and YAML.
-/

namespace Steward

/-- The number `± digits · 10 ^ exponent`. -/
structure Decimal where
  /-- Whether there is a minus sign. -/
  negative : Bool
  /-- The digits as a whole number. -/
  digits : Nat
  /-- The power of ten. -/
  exponent : Int
  deriving Repr, DecidableEq

namespace Decimal

/-- The whole number that a text of digits stands for; digits reach up to `z` as in base 36. -/
def digitValue (c : Char) : Nat :=
  if c.isDigit then c.toNat - '0'.toNat
  else if c.isLower then c.toNat - 'a'.toNat + 10
  else if c.isUpper then c.toNat - 'A'.toNat + 10
  else 36

/-- The whole number that a text of digits in the given base stands for. -/
def ofDigits (base : Nat) (text : List Char) : Nat :=
  text.foldl (fun n c => n * base + digitValue c) 0

/-- Reads a whole number in the given base: one digit or more and nothing else. -/
def readNat? (base : Nat) (text : List Char) : Option Nat :=
  if text ≠ [] ∧ text.all (fun c => digitValue c < base) then some (ofDigits base text) else none

/-- Reads an optional sign and a whole number in base ten. -/
def readInt? (text : List Char) : Option Int :=
  match text with
  | '-' :: rest => (readNat? 10 rest).map fun n => -(n : Int)
  | '+' :: rest => (readNat? 10 rest).map Int.ofNat
  | _ => (readNat? 10 text).map Int.ofNat

/-- Reads what follows the digits: nothing, or `e` and a power of ten. -/
def readExponent? (text : List Char) : Option Int :=
  match text with
  | [] => some 0
  | c :: rest => if c = 'e' ∨ c = 'E' then readInt? rest else none

/-- Reads a decimal without a sign. -/
def readUnsigned? (text : List Char) : Option Decimal :=
  let whole := text.takeWhile Char.isDigit
  let behind := text.dropWhile Char.isDigit
  let (places, behind) := match behind with
    | '.' :: rest => (rest.takeWhile Char.isDigit, rest.dropWhile Char.isDigit)
    | _ => ([], behind)
  if whole = [] ∧ places = [] then none
  else (readExponent? behind).map fun e =>
    ⟨false, ofDigits 10 (whole ++ places), e - places.length⟩

/-- Reads a decimal with an optional sign. -/
def read? (text : List Char) : Option Decimal :=
  match text with
  | '-' :: rest => (readUnsigned? rest).map fun d => { d with negative := true }
  | '+' :: rest => readUnsigned? rest
  | _ => readUnsigned? text

/-- The digits of a whole number in base ten. -/
def natText (n : Nat) : List Char := Nat.toDigits 10 n

/-- The text of an integer in base ten. -/
def intText (n : Int) : List Char :=
  if n < 0 then '-' :: natText n.natAbs else natText n.natAbs

end Decimal

end Steward
