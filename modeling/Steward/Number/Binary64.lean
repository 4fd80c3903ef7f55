import Steward.Number.Decimal

/-!
# Binary floating point numbers of 64 bits

A finite number is `± mantissa · 2 ^ exponent` in its canonical form: the mantissa has 53 bits, or
fewer at the least exponent `-1074`. `ofDecimal` rounds a decimal to the nearest number, a tie to
the even mantissa. `shortest` goes back: it gives the decimal with the fewest digits that still
rounds to the number, and of those the nearest one.

All arithmetic is exact, on whole numbers.

`parse_file`, and `load` and `scalar` of a document, leave this to the libraries for TOML and YAML.
-/

namespace Steward

/-- A binary floating point number of 64 bits. -/
inductive Binary64 where
  /-- Not a number. -/
  | nan
  /-- An infinity. -/
  | infinite (negative : Bool)
  /-- `± mantissa · 2 ^ exponent`. -/
  | finite (negative : Bool) (mantissa : Nat) (exponent : Int)
  deriving Repr, DecidableEq

namespace Binary64

/-- The least exponent. -/
def minExponent : Int := -1074

/-- The greatest exponent. -/
def maxExponent : Int := 971

/-- True if the number is finite. -/
def isFinite : Binary64 → Bool
  | finite .. => true
  | _ => false

/-- Equality of numbers as values of a key: zeros of both signs are one, and so is every number
    that is not one. -/
def sameValue : Binary64 → Binary64 → Bool
  | finite _ 0 _, finite _ 0 _ => true
  | x, y => x == y

/-- `num / den`, rounded to a whole number; a tie goes to the even one. -/
def roundDiv (num den : Nat) : Nat :=
  let q := num / den
  let r := num % den
  if 2 * r < den then q
  else if den < 2 * r then q + 1
  else if q % 2 = 0 then q else q + 1

/-- `num / den` in units of `2 ^ e`, as a fraction. -/
def scale (num den : Nat) (e : Int) : Nat × Nat :=
  if e < 0 then (num <<< e.natAbs, den) else (num, den <<< e.natAbs)

/-- The finite number or infinity nearest to `num / den`. -/
def ofRatio (negative : Bool) (num den : Nat) : Binary64 :=
  let estimate := max ((num.log2 : Int) - den.log2 - 53) minExponent
  let (n, d) := scale num den estimate
  let e := if n / d < 1 <<< 53 then estimate else estimate + 1
  let (n, d) := scale num den e
  let m := roundDiv n d
  let (m, e) := if m = 1 <<< 53 then (1 <<< 52, e + 1) else (m, e)
  if maxExponent < e then infinite negative
  else if m = 0 then finite negative 0 minExponent
  else finite negative m e

/-- The number nearest to a decimal. A decimal of at least `10 ^ 309` is too large, and one below
    `10 ^ -325` is nearest to zero. -/
def ofDecimal (d : Decimal) : Binary64 :=
  if d.digits = 0 then finite d.negative 0 minExponent
  else
    let length : Int := (Decimal.natText d.digits).length
    if 309 < length + d.exponent then infinite d.negative
    else if length + d.exponent < -325 then finite d.negative 0 minExponent
    else if d.exponent < 0 then ofRatio d.negative d.digits (Nat.pow 10 d.exponent.natAbs)
    else ofRatio d.negative (d.digits * Nat.pow 10 d.exponent.natAbs) 1

/-! ## The shortest decimal -/

/-- The reals that round to a finite number: the number and the two ends, as multiples of a
    common unit, and whether the ends belong to it. -/
structure Interval where
  /-- The lower end. -/
  low : Nat
  /-- The number itself. -/
  value : Nat
  /-- The upper end. -/
  high : Nat
  /-- The unit is `2 ^ unit`. -/
  unit : Int
  /-- Whether the ends round to the number. -/
  closed : Bool

/-- The reals that round to `mantissa · 2 ^ exponent`. Below a power of two the numbers lie twice as
    close, so there the lower end is nearer. -/
def interval (mantissa : Nat) (exponent : Int) : Interval where
  low := if mantissa = 1 <<< 52 ∧ minExponent < exponent then 4 * mantissa - 1 else 4 * mantissa - 2
  value := 4 * mantissa
  high := 4 * mantissa + 2
  unit := exponent - 2
  closed := mantissa % 2 = 0

/-- A multiple of the unit of an interval, as a fraction in units of `10 ^ p`. -/
def Interval.inTens (i : Interval) (n : Nat) (p : Int) : Nat × Nat :=
  let num := if i.unit < 0 then n else n <<< i.unit.natAbs
  let den := if i.unit < 0 then 1 <<< i.unit.natAbs else 1
  if p < 0 then (num * Nat.pow 10 p.natAbs, den) else (num, den * Nat.pow 10 p.natAbs)

/-- True if `c · 10 ^ p` lies in the interval. -/
def Interval.contains (i : Interval) (c : Nat) (p : Int) : Bool :=
  let (ln, d) := i.inTens i.low p
  let (hn, _) := i.inTens i.high p
  if i.closed then ln ≤ c * d && c * d ≤ hn else ln < c * d && c * d < hn

/-- The multiple of `10 ^ p` in the interval that is nearest to the number; a tie goes to the even
    multiple. It is one of the two neighbours of the number. -/
def Interval.onGrid? (i : Interval) (p : Int) : Option Nat :=
  let (n, d) := i.inTens i.value p
  let f := n / d
  let below := i.contains f p
  let above := i.contains (f + 1) p
  if below && above then some (roundDiv n d)
  else if below then some f
  else if above then some (f + 1)
  else none

/-- The position of the first digit of `num / den`, at most: a power of ten that is not above it,
    counted down from `start`. -/
def firstPlace (num den : Nat) : Int :=
  let digits (n : Nat) : Int := (Decimal.natText n).length
  let guess := digits num - digits den
  let reached := if guess < 0 then decide (den ≤ num * Nat.pow 10 guess.natAbs)
    else decide (den * Nat.pow 10 guess.natAbs ≤ num)
  if reached then guess else guess - 1

/-- Takes zeros away from the end of the digits. -/
def dropZeros (digits : Nat) (exponent : Int) : Nat → Nat × Int
  | 0 => (digits, exponent)
  | n + 1 => if digits % 10 = 0 then dropZeros (digits / 10) (exponent + 1) n
      else (digits, exponent)

/-- The digits and the power of ten of the shortest decimal that rounds to
    `mantissa · 2 ^ exponent`, for a mantissa above zero. -/
def shortest (mantissa : Nat) (exponent : Int) : Nat × Int :=
  let i := interval mantissa exponent
  let (n, d) := i.inTens i.value 0
  let first := firstPlace n d
  let found := (List.range 18).findSome? fun k =>
    let p := first - (k : Nat)
    (i.onGrid? p).map fun c => dropZeros c p 20
  found.getD (0, 0)

end Binary64

end Steward
