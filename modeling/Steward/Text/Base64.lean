import Steward.Number.Octets

/-!
# Base64

Three octets are written as four characters of six bits each. What is left over at the end, one octet
or two, is written as two or three characters, whose unused bits are zero, and filled up to four with
the padding character.

`decrypt` leaves this to a library (`decode` of `STANDARD`).
-/

namespace Steward.Text.Base64

/-- The value of a character. -/
def value? (c : Char) : Option Nat :=
  if 'A' ≤ c ∧ c ≤ 'Z' then some (c.toNat - 'A'.toNat)
  else if 'a' ≤ c ∧ c ≤ 'z' then some (c.toNat - 'a'.toNat + 26)
  else if '0' ≤ c ∧ c ≤ '9' then some (c.toNat - '0'.toNat + 52)
  else if c = '+' then some 62
  else if c = '/' then some 63
  else none

/-- The padding character. -/
def padding : Char := '='

/-- The number that some characters stand for. -/
def number? (cs : List Char) : Option Nat :=
  (cs.mapM value?).map fun vs => vs.foldl (fun n v => n * 64 + v) 0

/-- The octets of a number of which the lowest `unused` bits have to be zero. -/
def filled? (count unused n : Nat) : Option Octets :=
  if n % 1 <<< unused = 0 then some (Octets.bigEndian count (n >>> unused)) else none

/-- The octets of the last four characters. -/
def last? (a b c d : Char) : Option Octets :=
  if d = padding then
    if c = padding then (number? [a, b]).bind (filled? 1 4)
    else (number? [a, b, c]).bind (filled? 2 2)
  else (number? [a, b, c, d]).bind (filled? 3 0)

/-- The octets of a text, if it is the written form of some. -/
def decode? : List Char → Option Octets
  | [] => some []
  | [a, b, c, d] => last? a b c d
  | a :: b :: c :: d :: rest =>
    (number? [a, b, c, d]).bind fun n => (decode? rest).map (Octets.bigEndian 3 n ++ ·)
  | _ => none

end Steward.Text.Base64
