import Steward.Number.Octets

/-!
# The SHA-1 digest

The message is followed by a one bit, by zeros and by its length in bits, so that it consists of
blocks of 64 octets. Each block is stretched from 16 to 80 words, which are worked into a state of
five words in as many rounds.

`decrypt` and `push_armored` leave this to a library for OpenPGP.
-/

namespace Steward.Digest.Sha1

/-- The state. -/
structure State where
  /-- The first word. -/
  a : UInt32
  /-- The second word. -/
  b : UInt32
  /-- The third word. -/
  c : UInt32
  /-- The fourth word. -/
  d : UInt32
  /-- The fifth word. -/
  e : UInt32
  deriving DecidableEq, Repr

/-- The state before the first block. -/
def initial : State := ⟨0x67452301, 0xEFCDAB89, 0x98BADCFE, 0x10325476, 0xC3D2E1F0⟩

/-- Rotates a word to the left. -/
def rotate (w n : UInt32) : UInt32 := (w <<< n) ||| (w >>> (32 - n))

/-- The function and the constant of a round. -/
def roundPart (round : Nat) (s : State) : UInt32 :=
  if round < 20 then ((s.b &&& s.c) ||| (~~~s.b &&& s.d)) + 0x5A827999
  else if round < 40 then (s.b ^^^ s.c ^^^ s.d) + 0x6ED9EBA1
  else if round < 60 then ((s.b &&& s.c) ||| (s.b &&& s.d) ||| (s.c &&& s.d)) + 0x8F1BBCDC
  else (s.b ^^^ s.c ^^^ s.d) + 0xCA62C1D6

/-- A round with a word. -/
def round (s : State) (w : UInt32 × Nat) : State :=
  ⟨rotate s.a 5 + roundPart w.2 s + s.e + w.1, s.a, rotate s.b 30, s.c, s.d⟩

/-- Adds two states word by word. -/
def State.add (s t : State) : State := ⟨s.a + t.a, s.b + t.b, s.c + t.c, s.d + t.d, s.e + t.e⟩

/-- The word of four octets. -/
def word (octets : Octets) : UInt32 := octets.foldl (fun w o => (w <<< 8) ||| o.toUInt32) 0

/-- Splits a list into parts of a length, the last of which may be shorter. -/
def chunks {α : Type} (size : Nat) (xs : List α) : List (List α) :=
  (List.range ((xs.length + size - 1) / size)).map fun i => (xs.drop (i * size)).take size

/-- Adds the next word to the words of a block. -/
def stretch (ws : Array UInt32) (_ : Nat) : Array UInt32 :=
  let at? (back : Nat) : UInt32 := ws.getD (ws.size - back) 0
  ws.push (rotate (at? 3 ^^^ at? 8 ^^^ at? 14 ^^^ at? 16) 1)

/-- The 80 words of a block. -/
def schedule (block : Octets) : List UInt32 :=
  ((List.range 64).foldl stretch ((chunks 4 block).map word).toArray).toList

/-- Works a block into the state. -/
def compress (s : State) (block : Octets) : State := s.add ((schedule block).zipIdx.foldl round s)

/-- The number of zeros behind a message. -/
def zeros (length : Nat) : Nat := (119 - length % 64) % 64

/-- What follows a message. -/
def suffix (length : Nat) : Octets :=
  0x80 :: List.replicate (zeros length) 0 ++ Octets.bigEndian 8 (length * 8)

/-- The octets of a state. -/
def State.octets (s : State) : Octets :=
  [s.a, s.b, s.c, s.d, s.e].flatMap fun w => Octets.bigEndian 4 w.toNat

/-- The blocks of a message, taken one after the other. -/
def absorb (s : State) : (blocks : Nat) → Octets → State
  | 0, _ => s
  | blocks + 1, octets => absorb (compress s (octets.take 64)) blocks (octets.drop 64)

/-- The digest of a message. -/
def digest (message : Octets) : Octets :=
  let octets := message ++ suffix message.length
  (absorb initial (octets.length / 64) octets).octets

end Steward.Digest.Sha1
