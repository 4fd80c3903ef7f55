import Steward.Compression.Gzip
import Steward.OpenPgp.Opening
import Steward.Secret.Error
import Steward.Secret.Keyring
import Steward.Text.Base64

/-!
# Secrets

The written form of a secret is a text that was compressed, enciphered for one or more keys, and
written in base64. Opening it undoes this from the last step to the first; the first step that fails
gives the error, which carries the written form.

This is `decrypt`, cut into its three steps.
-/

namespace Steward.Secret

/-- From the written form to octets. -/
def decode (input : String) : Except OpenError Octets :=
  match Text.Base64.decode? input.toList with
  | some octets => .ok octets
  | none => .error ⟨.decode, input, "not base64"⟩

/-- The contents of a message that is opened with the keys of a ring. -/
def opened? (ring : Keyring) (octets : Octets) : Option Octets := do
  let message ← OpenPgp.Message.ofOctets? octets
  let inner ← message.open? ring.keys
  inner.contents?

/-- From octets to the contents of the message. -/
def openMessage (input : String) (ring : Keyring) (octets : Octets) : Except OpenError Octets :=
  match opened? ring octets with
  | some contents => .ok contents
  | none => .error ⟨.crypto, input, "message cannot be opened"⟩

/-- The text that some octets are the written form of. -/
def textOf? (octets : Octets) : Option String := String.fromUTF8? ⟨octets.toArray⟩

/-- From the contents of the message to text. -/
def decompress (input : String) (contents : Octets) : Except OpenError String :=
  match (Compression.Gzip.contents? contents).bind textOf? with
  | some text => .ok text
  | none => .error ⟨.decompress, input, "not compressed text"⟩

/-- Opens a secret with the keys of a ring. -/
def decrypt (input : String) (ring : Keyring) : Except OpenError String := do
  let octets ← decode input
  let contents ← openMessage input ring octets
  decompress input contents

end Steward.Secret
