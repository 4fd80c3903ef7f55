import Steward.Cipher.Feedback
import Steward.OpenPgp.Message
import Steward.OpenPgp.SecretKey

/-!
# Opening messages

Every key tries the session key for the first recipient that is one of its parts. Of the session keys
that are found in this way all have to be the same. The packets are then deciphered with it; they
begin with a block of random octets, whose last two are repeated, and end with the digest of all that
stands before it.

`decrypt` leaves this to a library for OpenPGP (`decrypt` of a message).
-/

namespace Steward.OpenPgp

/-- A session key for a cipher. -/
structure SessionKey where
  /-- The number of the cipher. -/
  cipher : Nat
  /-- The key. -/
  key : Octets
  deriving DecidableEq, Repr

namespace SessionKey

/-- The number of octets in a key for a cipher. -/
def size? (cipher : Nat) : Option Nat := [(7, 16), (8, 24), (9, 32)].lookup cipher

/-- Reads a session key: the cipher, the key, and the sum of the key. -/
def ofOctets? : Octets → Option SessionKey
  | cipher :: rest => do
    let size ← size? cipher.toNat
    let (key, sum) ← Packet.split? size rest
    if sum.length = 2 ∧ Octets.ofBigEndian sum = Digest.sum16 key then some ⟨cipher.toNat, key⟩
    else none
  | [] => none

end SessionKey

namespace SecretKey

/-- The part with an identifier. -/
def part? (k : SecretKey) (id : Octets) : Option KeyPart := k.parts.find? fun p => p.id = id

/-- The session key of the first recipient that is a part of a key. -/
def sessionKey? (k : SecretKey) (recipients : List Recipient) : Option SessionKey := do
  let (part, recipient) ← recipients.findSome? fun r => (k.part? r.keyId).map fun p => (p, r)
  let rsa ← part.rsa
  let octets ← Cipher.Rsa.decipher? rsa recipient.cipher
  SessionKey.ofOctets? octets

end SecretKey

/-- The session key on which all keys agree that find one. -/
def agreedKey? (keys : List SecretKey) (recipients : List Recipient) : Option SessionKey :=
  match keys.filterMap fun k => k.sessionKey? recipients with
  | [] => none
  | found :: others => if others.all (· = found) then some found else none

/-- The number of octets in front of the packets. -/
def leaderSize : Nat := Cipher.Feedback.blockSize + 2

/-- What stands in front of the digest behind the packets. -/
def digestHeader : Octets := [0xD3, 0x14]

/-- The number of octets behind the packets. -/
def trailerSize : Nat := 22

/-- Deciphers protected data. -/
def decipher? (session : SessionKey) (data : Octets) : Option Octets :=
  let plain := Cipher.Feedback.decipher session.key data
  if plain.length < leaderSize + trailerSize then none
  else
    let front := plain.take (plain.length - trailerSize)
    let trailer := plain.drop (plain.length - trailerSize)
    if trailer = digestHeader ++ Digest.Sha1.digest (front ++ digestHeader) then
      some (front.drop leaderSize)
    else none

namespace Message

/-- Opens a message that is enciphered, or is signed and holds one that is. -/
def open? (keys : List SecretKey) : Message → Option Message
  | literal _ => none
  | compressed .. => none
  | signed none => none
  | signed (some inner) => inner.open? keys
  | enciphered recipients data => do
    let session ← agreedKey? keys recipients
    let data ← data
    let packets ← decipher? session data
    ofOctets? packets

end Message

end Steward.OpenPgp
