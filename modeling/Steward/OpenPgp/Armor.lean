import Steward.Digest.Checksum
import Steward.Text.Base64

/-!
# Armor

Armor is a form of octets that passes as text: a header line with five dashes on both sides, which
tells the kind of block; lines with further information; an empty line; the octets in base64, over
any number of lines; the remainder of the octets, behind an equals sign; and a closing line. What
stands before the header line and behind the closing line does not count, and the remainder may be
missing.

`push_armored` leaves this to a library for OpenPGP.
-/

namespace Steward.OpenPgp.Armor

/-- The dashes on both sides of a header line. -/
def dashes : List Char := "-----".toList

/-- What is left of a text behind the first place where a word stands. -/
def after? (word : List Char) : List Char → Option (List Char)
  | [] => none
  | c :: rest =>
    if word.isPrefixOf (c :: rest) then some ((c :: rest).drop word.length) else after? word rest

/-- What is left of a text behind a word that it begins with. -/
def behind? (word text : List Char) : Option (List Char) :=
  if word.isPrefixOf text then some (text.drop word.length) else none

/-- The first line of a text without its end, and the other lines, if there are any. -/
def line (text : List Char) : List Char × Option (List Char) :=
  let first := text.takeWhile (· != '\n')
  let rest := (text.dropWhile (· != '\n')).tail?
  (if first.getLast? = some '\r' then first.dropLast else first, rest)

/-- True if nothing can be seen of a line. -/
def isBlank (line : List Char) : Bool := line.all fun c => c = ' ' || c = '\t'

/-- What follows the empty line behind the header line; there are fewer than `limit` lines. -/
def skipInformation? : (limit : Nat) → List Char → Option (List Char)
  | 0, _ => none
  | limit + 1, text =>
    match line text with
    | (first, some rest) =>
      if isBlank first then some rest
      else if first.contains ':' then skipInformation? limit rest
      else none
    | (_, none) => none

/-- True if a character stands between the lines of a body. -/
def isLineEnd (c : Char) : Bool := c = '\n' || c = '\r'

/-- The octets of a body in base64, which may be followed by their remainder. -/
def octets? (body : List Char) : Option Octets :=
  let body := body.filter fun c => !isLineEnd c
  match body.drop (body.length - 5) with
  | '=' :: check => do
    let octets ← Text.Base64.decode? (body.take (body.length - 5))
    let remainder ← Text.Base64.decode? check
    if Octets.ofBigEndian remainder = (Digest.crc24 octets).toNat then some octets else none
  | _ => Text.Base64.decode? body

/-- The octets of a block of a kind. -/
def block? (kind : String) (text : List Char) : Option Octets := do
  let text ← after? dashes text
  let text ← behind? ("BEGIN PGP ".toList ++ kind.toList ++ dashes) text
  let (front, rest) := line text
  let text ← if isBlank front then rest else none
  let text ← skipInformation? (text.length + 1) text
  let body := text.takeWhile (· != '-')
  let ending := text.dropWhile (· != '-')
  let _ ← behind? (dashes ++ "END PGP ".toList ++ kind.toList ++ dashes) ending
  octets? body

end Steward.OpenPgp.Armor
