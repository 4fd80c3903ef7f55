import Steward.Number.Octets

/-!
# Packets

A message or a key is a sequence of packets. A packet begins with an octet for its kind, then comes
the length of its body in one of two forms. In the newer form the body of a packet that carries data
can come in several parts, of which each tells the length of the next; the first has at least 512
octets. In the older form the body can extend to the end.

`decrypt` and `push_armored` leave this to a library for OpenPGP.
-/

namespace Steward.OpenPgp

/-- A packet. -/
structure Packet where
  /-- The number of its kind. -/
  kind : Nat
  /-- Its body. -/
  body : Octets
  deriving DecidableEq, Repr

/-- What is found at the beginning of a sequence of packets. -/
inductive NextPacket where
  /-- There are no more packets. -/
  | none
  /-- This is not a packet. -/
  | malformed
  /-- A packet, and what follows it. -/
  | packet (p : Packet) (rest : Octets)
  deriving DecidableEq, Repr

namespace Packet

/-! ## Kinds -/

/-- A session key for the holder of a key. -/
def sessionKeyKind : Nat := 1

/-- A signature. -/
def signatureKind : Nat := 2

/-- A session key for those who know a password. -/
def passwordKind : Nat := 3

/-- The announcement of a signature. -/
def announcementKind : Nat := 4

/-- A secret key. -/
def secretKeyKind : Nat := 5

/-- A secret key that belongs to another key. -/
def secretSubkeyKind : Nat := 7

/-- Compressed packets. -/
def compressedKind : Nat := 8

/-- Enciphered packets without protection. -/
def encipheredKind : Nat := 9

/-- A marker, which says nothing. -/
def markerKind : Nat := 10

/-- A literal text. -/
def literalKind : Nat := 11

/-- A trust value, which is for the software that wrote it. -/
def trustKind : Nat := 12

/-- The name of the holder of a key. -/
def userKind : Nat := 13

/-- A public key that belongs to another key. -/
def publicSubkeyKind : Nat := 14

/-- An attribute of the holder of a key. -/
def attributeKind : Nat := 17

/-- Enciphered packets that are protected against changes. -/
def protectedKind : Nat := 18

/-- The kinds whose bodies can come in several parts. -/
def dataKinds : List Nat := [compressedKind, encipheredKind, literalKind, protectedKind]

/-- True if the number of an algorithm stands for RSA, be it for all uses, for enciphering or for
    signing. -/
def isRsa (algorithm : UInt8) : Bool := 1 ≤ algorithm && algorithm ≤ 3

/-! ## Reading -/

/-- The length of the next part of a body. -/
inductive PartLength where
  /-- The part is the last one. -/
  | last (length : Nat)
  /-- Another part follows. -/
  | other (length : Nat)
  deriving DecidableEq, Repr

/-- Reads a length in the newer form. -/
def partLength? : Octets → Option (PartLength × Octets)
  | [] => none
  | o :: rest =>
    if o < 192 then some (.last o.toNat, rest)
    else if o < 224 then
      match rest with
      | p :: rest => some (.last ((o.toNat - 192) * 256 + p.toNat + 192), rest)
      | [] => none
    else if o = 255 then
      if rest.length < 4 then none
      else some (.last (Octets.ofBigEndian (rest.take 4)), rest.drop 4)
    else some (.other (1 <<< (o.toNat % 32)), rest)

/-- Splits a list, if it is long enough. -/
def split? (length : Nat) (octets : Octets) : Option (Octets × Octets) :=
  if octets.length < length then none else some (octets.take length, octets.drop length)

/-- Reads a body in parts, of which there are fewer than `limit`. -/
def parts? : (limit : Nat) → Octets → Option (Octets × Octets)
  | 0, _ => none
  | limit + 1, octets => do
    let (length, rest) ← partLength? octets
    match length with
    | .last n => split? n rest
    | .other n =>
      let (part, rest) ← split? n rest
      let (more, rest) ← parts? limit rest
      some (part ++ more, rest)

/-- True if the body of a packet of a kind may begin with a part of this length. -/
def mayBegin (kind : Nat) : PartLength → Bool
  | .last _ => true
  | .other n => dataKinds.contains kind && 512 ≤ n

/-- Reads a body whose length has the newer form. -/
def newerBody? (kind : Nat) (octets : Octets) : Option (Octets × Octets) := do
  let (length, _) ← partLength? octets
  if mayBegin kind length then parts? (octets.length + 1) octets else none

/-- Reads a body whose length has the older form, which takes up some octets or is not given. -/
def olderBody? (form : Nat) (octets : Octets) : Option (Octets × Octets) :=
  if form = 3 then some (octets, [])
  else do
    let (length, rest) ← split? (1 <<< form) octets
    split? (Octets.ofBigEndian length) rest

/-- The packet with a kind and a body; no kind has the number zero. -/
def ofBody (kind : Nat) (body : Option (Octets × Octets)) : NextPacket :=
  match body with
  | some (body, rest) => if kind = 0 then .malformed else .packet ⟨kind, body⟩ rest
  | none => .malformed

/-- Reads the packet at the beginning of a sequence. -/
def next : Octets → NextPacket
  | [] => .none
  | o :: rest =>
    let n := o.toNat
    if n < 128 then .malformed
    else if n < 192 then ofBody (n / 4 % 16) (olderBody? (n % 4) rest)
    else ofBody (n % 64) (newerBody? (n % 64) rest)

end Packet

end Steward.OpenPgp
