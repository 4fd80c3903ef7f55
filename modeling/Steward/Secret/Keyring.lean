import Steward.OpenPgp.SecretKey

/-!
# Keyrings

A keyring holds the secret keys that messages may be addressed to. A block that is not a secret key is
not added to it.

This is the `Keyring`, with `push_armored`, `from_armored`, `len` and `is_empty`.
-/

namespace Steward.Secret

/-- Secret keys. -/
structure Keyring where
  /-- The keys, in the order in which they were added. -/
  keys : List OpenPgp.SecretKey := []
  deriving DecidableEq, Repr

namespace Keyring

/-- The keyring without keys. -/
def empty : Keyring := {}

/-- Adds the key in an armored block. -/
def pushArmored? (ring : Keyring) (armored : String) : Option Keyring :=
  (OpenPgp.SecretKey.ofArmored? armored).map fun key => ⟨ring.keys ++ [key]⟩

/-- The keyring with the key in an armored block. -/
def ofArmored? (armored : String) : Option Keyring := empty.pushArmored? armored

/-- The number of keys. -/
def size (ring : Keyring) : Nat := ring.keys.length

/-- True if there is no key. -/
def isEmpty (ring : Keyring) : Bool := ring.keys.isEmpty

end Keyring

end Steward.Secret
