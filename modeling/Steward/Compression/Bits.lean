import Steward.Number.Octets

/-!
# Streams of bits

The bits of an octet come in the order of their weight, the lowest first. A number takes up bits in
the same order.

`decrypt` leaves this to libraries, for gzip and for OpenPGP.
-/

namespace Steward.Compression

/-- A stream of bits. -/
abbrev Bits := List Bool

namespace Bits

/-- The bits of an octet. -/
def ofOctet (o : UInt8) : Bits := (List.range 8).map fun i => o.toNat.testBit i

/-- The bits of some octets. -/
def ofOctets (octets : Octets) : Bits := octets.flatMap ofOctet

/-- The number that some bits stand for. -/
def toNat (bits : Bits) : Nat := bits.foldr (fun b n => 2 * n + b.toNat) 0

/-- Takes a number of `count` bits from a stream that is long enough. -/
def take? (count : Nat) (bits : Bits) : Option (Nat × Bits) :=
  let front := bits.take count
  if front.length < count then none else some (toNat front, bits.drop count)

/-- What is left of a stream of whole octets from the next octet on. -/
def align (bits : Bits) : Bits := bits.drop (bits.length % 8)

/-- Takes whole octets from a stream, as many as there are but no more than `count`. -/
def takeOctets : (count : Nat) → Bits → Octets × Bits
  | 0, bits => ([], bits)
  | count + 1, bits =>
    match take? 8 bits with
    | none => ([], bits)
    | some (n, rest) =>
      let more := takeOctets count rest
      (UInt8.ofNat n :: more.1, more.2)

/-- The octets of a stream from the next octet on. -/
def remainder (bits : Bits) : Octets := (takeOctets (bits.length / 8) (align bits)).1

end Bits

end Steward.Compression
