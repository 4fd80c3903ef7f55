import Steward.Compression.Inflate
import Steward.Digest.Checksum

/-!
# Gzip members

A member has a header, which names the method and may give further fields; a deflated stream; and the
remainder and the length of its contents. What follows a member is not read.

`decrypt` leaves this to a library (`read_to_string` of a `GzDecoder`), with the deflated streams
and the Huffman codes.
-/

namespace Steward.Compression.Gzip

/-- True if a flag is set. -/
def hasFlag (flags : UInt8) (bit : Nat) : Bool := flags.toNat.testBit bit

/-- The longest text in a header. -/
def longestText : Nat := 65535

/-- What follows a text that ends with a zero, if the flag for it is set. -/
def skipText? (isThere : Bool) (octets : Octets) : Option Octets :=
  if isThere then
    match octets.dropWhile (· != 0) with
    | _ :: rest =>
      if longestText < (octets.takeWhile (· != 0)).length then none else some rest
    | [] => none
  else some octets

/-- What follows the extra field, if the flag for it is set. -/
def skipExtra? (isThere : Bool) (octets : Octets) : Option Octets :=
  if isThere then
    match octets with
    | low :: high :: rest =>
      let length := Octets.ofLittleEndian [low, high]
      if rest.length < length then none else some (rest.drop length)
    | _ => none
  else some octets

/-- What follows the check of a header, if the flag for it is set. -/
def skipCheck? (isThere : Bool) (header octets : Octets) : Option Octets :=
  if isThere then
    match octets with
    | low :: high :: rest =>
      if Octets.ofLittleEndian [low, high] = (Digest.crc32 header).toNat % 65536 then some rest
      else none
    | _ => none
  else some octets

/-- What follows the header of a member. -/
def skipHeader? (octets : Octets) : Option Octets := do
  match octets with
  | 0x1F :: 0x8B :: 8 :: flags :: _ :: _ :: _ :: _ :: _ :: _ :: rest =>
    if 32 ≤ flags then none
    else
      let rest ← skipExtra? (hasFlag flags 2) rest
      let rest ← skipText? (hasFlag flags 3) rest
      let rest ← skipText? (hasFlag flags 4) rest
      skipCheck? (hasFlag flags 1) (octets.take (octets.length - rest.length)) rest
  | _ => none

/-- True if some octets begin with the remainder and the length of contents. -/
def isTrailerOf (trailer contents : Octets) : Bool :=
  trailer.length ≥ 8 &&
    Octets.ofLittleEndian (trailer.take 4) = (Digest.crc32 contents).toNat &&
    Octets.ofLittleEndian ((trailer.drop 4).take 4) = contents.length % UInt32.size

/-- The contents of the member that some octets begin with. -/
def contents? (octets : Octets) : Option Octets := do
  let stream ← skipHeader? octets
  let inflated := Inflate.inflate stream
  match inflated.rest with
  | .ok rest =>
    let contents := inflated.output.toList
    if isTrailerOf rest.remainder contents then some contents else none
  | .error _ => none

end Steward.Compression.Gzip
