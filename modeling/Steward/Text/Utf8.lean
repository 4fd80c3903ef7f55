import Steward.Number.Octets

/-!
# UTF-8

The octets of a text, and the text that some octets stand for. Octets that are not the form of any
text, as they may occur in the names of files, stand for a text as well (`to_string_lossy`, and
`display` of a path): in place of every longest run that begins a character without completing it,
and of every octet that cannot begin one, there is the replacement character.
-/

namespace Steward.Text

/-- The UTF-8 form of a text. -/
def bytes (text : String) : Octets := text.toUTF8.data.toList

/-- What stands in place of octets that are no character. -/
def replacement : Char := '\uFFFD'

/-- Where a reader of octets is. -/
inductive Reading where
  /-- Between two characters. -/
  | between
  /-- Within a character of which `owed` octets are due behind the next one, which has to be between
      the bounds; the octets so far give the value. -/
  | within (owed low high value : Nat)

namespace Reading

/-- Behind an octet that comes first: the characters that are then complete, and where the reader
    is. Some first octets have narrower bounds for the next one, so that no character has a longer
    form than it needs and none is a surrogate or beyond the last one. -/
def first (octet : UInt8) : List Char × Reading :=
  let n := octet.toNat
  if n < 0x80 then ([.ofNat n], between)
  else if n < 0xC2 then ([replacement], between)
  else if n < 0xE0 then ([], within 0 0x80 0xBF (n - 0xC0))
  else if n = 0xE0 then ([], within 1 0xA0 0xBF 0)
  else if n = 0xED then ([], within 1 0x80 0x9F 0x0D)
  else if n < 0xF0 then ([], within 1 0x80 0xBF (n - 0xE0))
  else if n = 0xF0 then ([], within 2 0x90 0xBF 0)
  else if n < 0xF4 then ([], within 2 0x80 0xBF (n - 0xF0))
  else if n = 0xF4 then ([], within 2 0x80 0x8F 4)
  else ([replacement], between)

/-- Behind one more octet. One that does not go on with a character begins the next one. -/
def step : Reading → UInt8 → List Char × Reading
  | between, octet => first octet
  | within owed low high value, octet =>
    if low ≤ octet.toNat ∧ octet.toNat ≤ high then
      let value := value * 64 + octet.toNat % 64
      match owed with
      | 0 => ([.ofNat value], between)
      | owed + 1 => ([], within owed 0x80 0xBF value)
    else
      let (complete, reading) := first octet
      (replacement :: complete, reading)

/-- What a reader makes of octets. -/
def characters : Reading → Octets → List Char
  | between, [] => []
  | within .., [] => [replacement]
  | reading, octet :: rest =>
    let (complete, reading) := reading.step octet
    complete ++ reading.characters rest

end Reading

/-- The text that octets stand for. -/
def lossy (octets : Octets) : String := .ofList (Reading.between.characters octets)

end Steward.Text
