import Steward.Number.Decimal
import Steward.Yaml.Token
import Steward.Yaml.Token.Scalar

/-!
# YAML: anchors, aliases, tags and directives

Readers for the tokens that name something. Each takes a cursor behind the first character of the
token and gives what was named with the cursor behind it.

`load` of a document leaves this to a library for YAML.
-/

namespace Steward.Yaml

/-! ## Names -/

/-- Reads a name, which may be empty. -/
def readName (c : Cursor) : String × Cursor :=
  let name := c.rest.takeWhile isNameChar
  (String.ofList name, c.skip name.length)

/-- True if what comes next may follow the name of an anchor. -/
def endsAnchor (text : List Char) : Bool :=
  atSpace text || (text.head?.map "?:,]\x7d%@\x60".toList.contains).getD false

/-- Reads the name of an anchor or an alias. -/
def readAnchor? (c : Cursor) : Option (String × Cursor) :=
  let (name, c) := readName c
  if name ≠ "" ∧ endsAnchor c.rest then some (name, c) else none

/-! ## Tags -/

/-- A character of the names of resources, in which tags are written. -/
def isUriChar (c : Char) : Bool := isNameChar c || ";/?:@&=+$.!~*'()%".toList.contains c

/-- The number of octets that a character has whose first octet is `b`. -/
def octetCount? (b : Nat) : Option Nat :=
  if b < 0x80 then some 1
  else if b / 0x20 = 6 then some 2
  else if b / 0x10 = 14 then some 3
  else if b / 0x08 = 30 then some 4
  else none

/-- The value of an escaped octet, such as `%2F`. -/
def escapedOctet? : List Char → Option Nat
  | '%' :: a :: b :: _ => Decimal.readNat? 16 [a, b]
  | _ => none

/-- The octets of `n` escapes that continue a character. -/
def continuation? : Nat → List Char → Option (List Nat)
  | 0, _ => some []
  | n + 1, text => do
    let b ← escapedOctet? text
    if b / 0x40 = 2 then (continuation? n (text.drop 3)).map (b :: ·) else none

/-- The octets of the character that comes next, written as escapes. -/
def escapedChar? (text : List Char) : Option (List Nat) := do
  let b ← escapedOctet? text
  let n ← octetCount? b
  (continuation? (n - 1) (text.drop 3)).map (b :: ·)

/-- Reads on in the name of a resource, whose octets so far are `octets`. The characters `,`, `[`
    and `]` belong to it if `verbatim` is set. -/
def readUri? (verbatim : Bool) (octets : List Nat) (c : Cursor) : Option (List UInt8 × Cursor) :=
  match c.rest with
  | [] => some (octets.map UInt8.ofNat, c)
  | x :: _ =>
    if x = '%' then
      match escapedChar? c.rest with
      | none => none
      | some more =>
        let next := c.skip (3 * more.length)
        if next.within c then readUri? verbatim (octets ++ more) next else none
    else if isUriChar x || (verbatim && ",[]".toList.contains x) then
      let next := c.skip 1
      if next.within c then readUri? verbatim (octets ++ [x.toNat]) next else none
    else some (octets.map UInt8.ofNat, c)
termination_by c.rest.length
decreasing_by all_goals simpa [Cursor.within] using ‹_›

/-- Reads the name of a resource, which is not empty. -/
def readSomeUri? (verbatim : Bool) (c : Cursor) : Option (List UInt8 × Cursor) :=
  (readUri? verbatim [] c).filter fun r => !r.1.isEmpty

/-- Reads a tag behind its `!`: verbatim between `<` and `>`, with a handle between two `!`, or
    local. A `!` that stands alone is a tag of its own, without a handle. -/
def readTag? (inFlow : Bool) (c : Cursor) : Option (Token × Cursor) := do
  let (name, behind) := readName c
  let (token, c) ←
    if c.head? = some '<' then do
      let (uri, c) ← readSomeUri? true (c.skip 1)
      if c.head? = some '>' then some (Token.tag "" uri, c.skip 1) else none
    else if behind.head? = some '!' then do
      let (suffix, c) ← readSomeUri? false (behind.skip 1)
      some (Token.tag ("!" ++ name ++ "!") suffix, c)
    else do
      let (suffix, c) ← readUri? false (name.toList.map Char.toNat) behind
      some (if suffix.isEmpty then Token.tag "" [33] else Token.tag "!" suffix, c)
  if atSpace c.rest || (inFlow && c.head? == some ',') then some (token, c) else none

/-! ## Directives -/

/-- Reads a number of at most nine digits. -/
def readVersionNumber? (c : Cursor) : Option (Nat × Cursor) :=
  let digits := c.rest.takeWhile Char.isDigit
  if digits.length ≤ 9 then
    (Decimal.readNat? 10 digits).map fun n => (n, c.skip digits.length)
  else none

/-- Reads the handle of a tag: `!`, or a name between two `!`. -/
def readHandle? (c : Cursor) : Option (String × Cursor) :=
  if c.head? = some '!' then
    let (name, c) := readName (c.skip 1)
    if c.head? = some '!' then some ("!" ++ name ++ "!", c.skip 1)
    else if name = "" then some ("!", c)
    else none
  else none

/-- Reads a directive behind its `%`, with the rest of its line. There are two: `YAML` with a
    version, and `TAG` with a handle and what it stands for. -/
def readDirective? (c : Cursor) : Option (Token × Cursor) := do
  let (name, c) := readName c
  let arguments := c.skipWhile isBlank
  if ¬ atSpace c.rest then none
  else if name = "YAML" then
    let (major, c) ← readVersionNumber? arguments
    if c.head? ≠ some '.' then none
    else
      let (minor, c) ← readVersionNumber? (c.skip 1)
      let c ← endLine? c
      pure (.version major minor, c)
  else if name = "TAG" then
    let (handle, c) ← readHandle? arguments
    if ¬ c.atBlank then none
    else
      let (meaning, c) ← readSomeUri? true (c.skipWhile isBlank)
      if ¬ atSpace c.rest then none
      else
        let c ← endLine? c
        pure (.tagHandle handle meaning, c)
  else none

end Steward.Yaml
