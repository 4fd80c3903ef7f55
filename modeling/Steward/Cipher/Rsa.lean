import Steward.Number.Octets

/-!
# RSA

A text is a number below the modulus and is deciphered by raising it to the secret exponent. Before it
is enciphered a text is padded to the length of the modulus: a zero, a two, at least eight octets that
are not zero, a zero, and the text.

`decrypt` leaves this to a library for OpenPGP.
-/

namespace Steward.Cipher.Rsa

/-- A secret key. -/
structure SecretKey where
  /-- The modulus. -/
  modulus : Nat
  /-- The secret exponent. -/
  exponent : Nat
  deriving DecidableEq, Repr

/-- A power modulo `m`. -/
def powMod (base exponent m : Nat) : Nat :=
  if exponent = 0 then 1 % m
  else
    let half := powMod base (exponent / 2) m
    let square := half * half % m
    if exponent % 2 = 1 then square * base % m else square
termination_by exponent
decreasing_by omega

/-- The number of octets of a number. -/
def octetCount (n : Nat) : Nat := if n = 0 then 0 else n.log2 / 8 + 1

/-- Takes the padding off. -/
def unpad? : Octets → Option (Octets)
  | 0 :: 2 :: rest =>
    match rest.dropWhile (· != 0) with
    | _ :: text => if 8 ≤ (rest.takeWhile (· != 0)).length then some text else none
    | [] => none
  | _ => none

/-- Deciphers a number. -/
def decipher? (key : SecretKey) (cipher : Nat) : Option (Octets) :=
  if cipher < key.modulus then
    unpad? (Octets.bigEndian (octetCount key.modulus) (powMod cipher key.exponent key.modulus))
  else none

end Steward.Cipher.Rsa
