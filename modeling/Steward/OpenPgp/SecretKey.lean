import Steward.Cipher.Rsa
import Steward.Digest.Checksum
import Steward.Digest.Sha1
import Steward.OpenPgp.Armor
import Steward.OpenPgp.Packet

/-!
# Secret keys

A secret key consists of a primary key and of subkeys, each in a packet of its own; the packets
between them say whom the key belongs to. A key is known by its identifier, the last eight octets of
the digest of its public part. Messages can be opened with RSA keys that are not locked by a
passphrase.

`push_armored` leaves this to a library for OpenPGP (`from_string` of a key).
-/

namespace Steward.OpenPgp

/-- A primary key or a subkey. -/
structure KeyPart where
  /-- The identifier. -/
  id : Octets
  /-- The key itself, if messages can be opened with it. -/
  rsa : Option Cipher.Rsa.SecretKey
  deriving DecidableEq, Repr

/-- A secret key. -/
structure SecretKey where
  /-- The primary key, and behind it the subkeys. -/
  parts : List KeyPart
  deriving DecidableEq, Repr

/-- Reads a number whose length in bits is given in front of it. -/
def number? : Octets → Option (Nat × Octets)
  | high :: low :: rest => do
    let bits := Octets.ofBigEndian [high, low]
    let (octets, rest) ← Packet.split? ((bits + 7) / 8) rest
    some (Octets.ofBigEndian octets, rest)
  | _ => none

namespace KeyPart

/-- The identifier of the key with a public part. -/
def identifier (publicPart : Octets) : Octets :=
  let digest := Digest.Sha1.digest (0x99 :: Octets.bigEndian 2 publicPart.length ++ publicPart)
  digest.drop (digest.length - 8)

/-- The secret exponent in a part that is not locked, which holds four numbers and their sum. -/
def exponent? (octets : Octets) : Option Nat := do
  let (exponent, rest) ← number? octets
  let (_, rest) ← number? rest
  let (_, rest) ← number? rest
  let (_, rest) ← number? rest
  let numbers := octets.take (octets.length - rest.length)
  if rest.length = 2 ∧ Octets.ofBigEndian rest = Digest.sum16 numbers then some exponent else none

/-- Reads the packet of an RSA key, behind its version, the time of its creation and its algorithm. -/
def ofRsaPacket? (body rest : Octets) : Option KeyPart := do
  let (modulus, rest) ← number? rest
  let (_, rest) ← number? rest
  let id := identifier (body.take (body.length - rest.length))
  match rest with
  | 0 :: secret =>
    let exponent ← exponent? secret
    some ⟨id, some ⟨modulus, exponent⟩⟩
  | _ :: _ => some ⟨id, none⟩
  | [] => none

/-- Reads the packet of a key. A key that is not an RSA key is left without identifier. -/
def ofPacket? (body : Octets) : Option KeyPart :=
  match body with
  | 4 :: _ :: _ :: _ :: _ :: algorithm :: rest =>
    if Packet.isRsa algorithm then ofRsaPacket? body rest else some ⟨[], none⟩
  | _ => none

end KeyPart

namespace SecretKey

/-- The kinds of packets that say whom a key belongs to. -/
def companions : List Nat :=
  [Packet.signatureKind, Packet.markerKind, Packet.trustKind, Packet.userKind,
    Packet.publicSubkeyKind, Packet.attributeKind]

/-- Reads the subkeys behind a primary key; there are fewer than `limit` packets. -/
def subkeys? : (limit : Nat) → Octets → Option (List KeyPart)
  | 0, _ => none
  | limit + 1, octets =>
    match Packet.next octets with
    | .none => some []
    | .malformed => none
    | .packet p rest =>
      if p.kind = Packet.secretSubkeyKind then do
        let part ← KeyPart.ofPacket? p.body
        let others ← subkeys? limit rest
        some (part :: others)
      else if companions.contains p.kind then subkeys? limit rest
      else some []

/-- Reads a secret key from packets. -/
def ofOctets? (octets : Octets) : Option SecretKey :=
  match Packet.next octets with
  | .packet p rest =>
    if p.kind = Packet.secretKeyKind then do
      let primary ← KeyPart.ofPacket? p.body
      let subkeys ← subkeys? (rest.length + 1) rest
      some ⟨primary :: subkeys⟩
    else none
  | _ => none

/-- Reads a secret key in armor. -/
def ofArmored? (text : String) : Option SecretKey :=
  (Armor.block? "PRIVATE KEY BLOCK" text.toList).bind ofOctets?

end SecretKey

end Steward.OpenPgp
