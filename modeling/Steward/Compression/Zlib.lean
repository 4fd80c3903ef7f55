import Steward.Compression.Inflate
import Steward.Digest.Checksum

/-!
# Compressed data in streams

A bare stream, or one between a header of two octets and a sum of its contents. A stream that ends
too early is read as far as it goes; so the sum may be missing, but if it is there it has to be right.

`decrypt` leaves this to a library for OpenPGP (`decompress` of a message).
-/

namespace Steward.Compression

/-- The contents of a deflated stream. -/
def ofDeflated? (octets : Octets) : Option Octets :=
  let inflated := Inflate.inflate octets
  match inflated.rest with
  | .error .corrupt => none
  | _ => some inflated.output.toList

/-- True if two octets are the header of a stream. -/
def isZlibHeader (method flags : UInt8) : Bool :=
  method.toNat % 16 = 8 && method.toNat / 16 ≤ 7 && flags &&& 0x20 = 0 &&
    (method.toNat * 256 + flags.toNat) % 31 = 0

/-- True if what follows a stream may be the sum of its contents. -/
def isSumOf (sum contents : Octets) : Bool :=
  sum.length < 4 || Octets.ofBigEndian (sum.take 4) = Digest.adler32 contents

/-- The contents of a stream with header and sum. -/
def ofZlib? : Octets → Option Octets
  | method :: flags :: rest =>
    if isZlibHeader method flags then
      let inflated := Inflate.inflate rest
      let contents := inflated.output.toList
      match inflated.rest with
      | .error .corrupt => none
      | .error .truncated => some contents
      | .ok left => if isSumOf left.remainder contents then some contents else none
    else none
  | _ => some []

end Steward.Compression
