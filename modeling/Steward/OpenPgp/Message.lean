import Steward.Compression.Zlib
import Steward.OpenPgp.Packet

/-!
# Messages

A message is a literal text, or another message that is compressed, signed or enciphered. What is
enciphered is preceded by session keys, one for each recipient. Signatures are not looked at.

Only the first message in a sequence of packets counts.

`decrypt` leaves this to a library for OpenPGP (`from_bytes` and `get_content` of a message).
-/

namespace Steward.OpenPgp

/-- A session key for a recipient. -/
structure Recipient where
  /-- The identifier of the key of the recipient. -/
  keyId : Octets
  /-- The session key, enciphered. -/
  cipher : Nat
  deriving DecidableEq, Repr

/-- A message. -/
inductive Message where
  /-- A text. -/
  | literal (body : Octets)
  /-- Packets that are compressed by a method. -/
  | compressed (method : UInt8) (data : Octets)
  /-- A message with a signature, if there is one. -/
  | signed (inner : Option Message)
  /-- Enciphered packets; the data is known if it is protected against changes. -/
  | enciphered (recipients : List Recipient) (data : Option Octets)
  deriving Repr

/-- What is found at the beginning of a sequence of packets. -/
inductive NextMessage where
  /-- There is no message. -/
  | none
  /-- This is not a message. -/
  | malformed
  /-- A message, and what follows it. -/
  | message (m : Message) (rest : Octets)

namespace Message

/-! ## Bodies of packets -/

/-- The text in the body of a literal packet, behind its format, its name and its date. -/
def literalBody? : Octets → Option Octets
  | _ :: length :: rest =>
    if rest.length < length.toNat + 4 then none else some (rest.drop (length.toNat + 4))
  | _ => none

/-- The message in the body of a compressed packet. -/
def ofCompressed? : Octets → Option Message
  | method :: octet :: rest => some (.compressed method (octet :: rest))
  | _ => none

/-- The recipient in the body of a session key packet. One of another version or with another
    algorithm is passed over. -/
def recipient? (body : Octets) : Option (Option Recipient) :=
  match body with
  | 3 :: rest =>
    if rest.length < 9 then none
    else
      match rest.drop 8 with
      | algorithm :: high :: low :: cipher =>
        if Packet.isRsa algorithm then
          let length := (Octets.ofBigEndian [high, low] + 7) / 8
          if cipher.length < length then none
          else some (some ⟨rest.take 8, Octets.ofBigEndian (cipher.take length)⟩)
        else some none
      | algorithm :: _ => if Packet.isRsa algorithm then none else some none
      | [] => none
  | _ :: _ => some none
  | [] => none

/-- The enciphered data in a packet: protected data has a version in front. -/
def encipheredData? (p : Packet) : Option (Option Octets) :=
  if p.kind = Packet.protectedKind then
    match p.body with
    | 1 :: data => some (some data)
    | _ :: _ => some none
    | [] => none
  else if p.kind = Packet.encipheredKind then some none
  else none

/-! ## Reading -/

/-- Reads the session keys and the enciphered data of a message of which some recipients were read
    already; there are fewer than `limit` packets. -/
def readEnciphered : (limit : Nat) → List Recipient → Octets → NextMessage
  | 0, _, _ => .malformed
  | limit + 1, recipients, octets =>
    match Packet.next octets with
    | .packet p rest =>
      if p.kind = Packet.markerKind ∨ p.kind = Packet.passwordKind then
        readEnciphered limit recipients rest
      else if p.kind = Packet.sessionKeyKind then
        match recipient? p.body with
        | some r => readEnciphered limit (recipients ++ r.toList) rest
        | none => .malformed
      else
        match encipheredData? p with
        | some data => .message (.enciphered recipients data) rest
        | none => .malformed
    | _ => .malformed

/-- The message in a packet that is a message of its own. -/
def ofBody (m : Option Message) (rest : Octets) : NextMessage :=
  match m with
  | some m => .message m rest
  | none => .malformed

/-- What follows the signature behind a message that was announced as signed; there are fewer than
    `limit` packets. -/
def skipSignature? : (limit : Nat) → Octets → Option Octets
  | 0, _ => none
  | limit + 1, octets =>
    match Packet.next octets with
    | .packet p rest =>
      if p.kind = Packet.markerKind then skipSignature? limit rest
      else if p.kind = Packet.signatureKind then some rest
      else none
    | _ => none

/-- A message that was announced as signed. -/
def ofAnnounced (inner : Option Message) (rest : Octets) : NextMessage :=
  match skipSignature? (rest.length + 1) rest with
  | some rest => .message (.signed inner) rest
  | none => .malformed

/-- Reads the message at the beginning of a sequence of packets; there are fewer than `limit`. -/
def next : (limit : Nat) → Octets → NextMessage
  | 0, _ => .malformed
  | limit + 1, octets =>
    match Packet.next octets with
    | .none => .none
    | .malformed => .malformed
    | .packet p rest =>
      if p.kind = Packet.markerKind then next limit rest
      else if p.kind = Packet.literalKind then ofBody ((literalBody? p.body).map literal) rest
      else if p.kind = Packet.compressedKind then ofBody (ofCompressed? p.body) rest
      else if p.kind = Packet.signatureKind then
        match next limit rest with
        | .none => .message (.signed none) []
        | .malformed => .malformed
        | .message m rest => .message (.signed (some m)) rest
      else if p.kind = Packet.announcementKind then
        match next limit rest with
        | .none => ofAnnounced none []
        | .malformed => .malformed
        | .message m rest => ofAnnounced (some m) rest
      else readEnciphered (octets.length + 1) [] octets

/-- The first message in a sequence of packets. -/
def ofOctets? (octets : Octets) : Option Message :=
  match next (octets.length + 1) octets with
  | .message m _ => some m
  | _ => none

/-! ## Contents -/

/-- Expands data that is compressed by a method. -/
def expand? (method : UInt8) (data : Octets) : Option Octets :=
  if method = 0 then some data
  else if method = 1 then Compression.ofDeflated? data
  else if method = 2 then Compression.ofZlib? data
  else none

/-- The message behind one layer of compression, or the message itself if it is not compressed. -/
def decompress? : Message → Option Message
  | compressed method data => (expand? method data).bind ofOctets?
  | m => some m

/-- The text of a message that is a literal, or is signed and holds one. -/
def literal? : Message → Option Octets
  | literal body => some body
  | signed (some inner) => inner.literal?
  | _ => none

/-- True if a message is compressed. -/
def isCompressed : Message → Bool
  | compressed .. => true
  | _ => false

/-- The contents of a message behind up to two layers of compression, which are empty if there is no
    literal. -/
def contents? (m : Message) : Option Octets := do
  let m ← m.decompress?
  let m ← m.decompress?
  if m.isCompressed then none else some (m.literal?.getD [])

end Message

end Steward.OpenPgp
