import Steward.Cipher.Aes

/-!
# Cipher feedback

A text is enciphered block by block: each block is added to the enciphered form of the block before it
in the result, and the first to that of a block of zeros. So it is deciphered by the same cipher.

`decrypt` leaves this to a library for OpenPGP.
-/

namespace Steward.Cipher.Feedback

/-- The number of octets in a block. -/
def blockSize : Nat := 16

/-- Deciphers `blocks` blocks behind the block `before`. The last of them may be incomplete. -/
def decipherFrom (encipher : Octets → Octets) :
    (blocks : Nat) → (before : Octets) → Octets → Octets
  | 0, _, _ => []
  | blocks + 1, before, octets =>
    let block := octets.take blockSize
    block.zipWith (· ^^^ ·) (encipher before) ++
      decipherFrom encipher blocks block (octets.drop blockSize)

/-- Deciphers a text with a key. -/
def decipher (key octets : Octets) : Octets :=
  let keys := Aes.expand key
  decipherFrom (Aes.encipherOctets keys) ((octets.length + blockSize - 1) / blockSize)
    (List.replicate blockSize 0) octets

end Steward.Cipher.Feedback
