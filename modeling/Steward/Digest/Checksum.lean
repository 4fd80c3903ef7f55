import Steward.Number.Octets

/-!
# Checksums

Checksums that tell whether octets were changed by accident: remainders of polynomial division, in
both orders of bits, and sums.

`decrypt` and `push_armored` leave this to libraries, for gzip and for OpenPGP.
-/

namespace Steward.Digest

/-! ## Remainders -/

/-- A step of a division that takes the lowest bit first. -/
def reflectedStep (polynomial : UInt32) (r : UInt32) : UInt32 :=
  if r &&& 1 = 0 then r >>> 1 else (r >>> 1) ^^^ polynomial

/-- The CRC-32 remainder of some octets. -/
def crc32 (octets : Octets) : UInt32 :=
  let step := reflectedStep 0xEDB88320
  let advance (r : UInt32) (o : UInt8) : UInt32 := Nat.repeat step 8 (r ^^^ o.toUInt32)
  octets.foldl advance 0xFFFFFFFF ^^^ 0xFFFFFFFF

/-- A step of a division by a polynomial of degree 24 that takes the highest bit first. -/
def crc24Step (r : UInt32) : UInt32 :=
  if r &&& 0x800000 = 0 then (r <<< 1) &&& 0xFFFFFF else ((r <<< 1) ^^^ 0x864CFB) &&& 0xFFFFFF

/-- The CRC-24 remainder of some octets. -/
def crc24 (octets : Octets) : UInt32 :=
  let advance (r : UInt32) (o : UInt8) : UInt32 :=
    Nat.repeat crc24Step 8 (r ^^^ (o.toUInt32 <<< 16))
  octets.foldl advance 0xB704CE

/-! ## Sums -/

/-- The sum of some octets, in 16 bits. -/
def sum16 (octets : Octets) : Nat := octets.foldl (fun n o => n + o.toNat) 0 % 65536

/-- The Adler-32 sum of some octets. -/
def adler32 (octets : Octets) : Nat :=
  let sums := octets.foldl
    (fun (s : Nat × Nat) o =>
      let a := (s.1 + o.toNat) % 65521
      (a, (s.2 + a) % 65521))
    (1, 0)
  sums.2 * 65536 + sums.1

end Steward.Digest
