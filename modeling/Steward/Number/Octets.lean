/-!
# Octets and numbers

A number is written in octets with the highest one first or with the lowest one first.

`decrypt` leaves this to a library for OpenPGP.
-/

namespace Steward

/-- Octets. -/
abbrev Octets := List UInt8

namespace Octets

/-- The lowest `count` octets of a number, the highest first. -/
def bigEndian : (count : Nat) → Nat → Octets
  | 0, _ => []
  | count + 1, n => bigEndian count (n / 256) ++ [UInt8.ofNat n]

/-- The number that is written with the highest octet first. -/
def ofBigEndian (octets : Octets) : Nat := octets.foldl (fun n o => n * 256 + o.toNat) 0

/-- The number that is written with the lowest octet first. -/
def ofLittleEndian (octets : Octets) : Nat := octets.foldr (fun o n => n * 256 + o.toNat) 0

end Octets

end Steward
