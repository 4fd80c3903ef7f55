import Steward.Text.CaseTable
import Steward.Text.Printable

/-!
# Upper and lower case

The full case mappings of texts: a character may become several, and a capital sigma at the end of
a word becomes the final form of the small one. A sigma ends a word if, passing over characters
that are ignored, a letter with case stands in front of it and none stands behind it.

The store of an environment maps the case of names in this way (`to_uppercase`, `to_lowercase`).
-/

namespace Steward.Text

/-- The image of a character beyond ASCII, or the character itself. -/
def mapCase (runs : List CaseRun) (expansions : List (Nat × List Nat)) (c : Char) : List Char :=
  match expansions.lookup c.toNat with
  | some image => image.map Char.ofNat
  | none => [((runs.findSome? fun r => r.map? c.toNat).map Char.ofNat).getD c]

/-- The upper case of a character. -/
def upperChar (c : Char) : List Char :=
  if c.toNat < 0x80 then [c.toUpper] else mapCase upperRuns upperExpansions c

/-- The lower case of a character, whatever surrounds it. -/
def lowerChar (c : Char) : List Char :=
  if c.toNat < 0x80 then [c.toLower] else mapCase lowerRuns lowerExpansions c

/-- The upper case of a text. -/
def toUpper (text : List Char) : List Char := text.flatMap upperChar

/-- True if the first character that is not ignored is a letter with case. -/
def startsCased (text : List Char) : Bool :=
  ((text.dropWhile (inRanges caseIgnorableRanges)).head?.map (inRanges casedRanges)).getD false

/-- The lower case of `text`, where `before` is the text in front of it, last character first. -/
def lowerAfter (before : List Char) : List Char → List Char
  | [] => []
  | c :: rest =>
    (if c = 'Σ' then [if startsCased before && !startsCased rest then 'ς' else 'σ']
      else lowerChar c) ++ lowerAfter (c :: before) rest

/-- The lower case of a text. -/
def toLower (text : List Char) : List Char := lowerAfter [] text

end Steward.Text
