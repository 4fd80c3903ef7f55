/-!
# Errors of secrets

A secret is opened in three stages. An error says which one failed, and keeps the text that was to
be opened.

`OpenError` is `SecretError`, with `as_label` (`label`).
-/

namespace Steward.Secret

/-- A stage of opening a secret. -/
inductive Stage where
  /-- From text to octets. -/
  | decode
  /-- From octets to the content of the message. -/
  | crypto
  /-- From the content of the message to text. -/
  | decompress
  deriving DecidableEq, Repr

/-- Why a secret cannot be opened. -/
structure OpenError where
  /-- The stage that failed. -/
  stage : Stage
  /-- The text that was to be opened. -/
  input : String
  /-- What went wrong. -/
  cause : String := ""
  deriving DecidableEq, Repr

namespace OpenError

/-- The message of an error. -/
def message (e : OpenError) : String :=
  match e.stage with
  | .decode => "decode secret: " ++ e.cause
  | .crypto => "open secret: " ++ e.cause
  | .decompress => "decompress secret: " ++ e.cause

/-- The label of an error. -/
def label (e : OpenError) : String :=
  match e.stage with
  | .decode => "secret_decode"
  | .crypto => "secret_crypto"
  | .decompress => "secret_decompress"

end OpenError

end Steward.Secret
