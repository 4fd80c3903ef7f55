/-!
# YAML: positions in a text

A cursor is the text that is left, with the line and the column it starts at and the number of
characters in front of it. Columns count characters; a carriage return with a line feed behind it
is one line break.

`load` of a document leaves this to a library for YAML.
-/

namespace Steward.Yaml

/-! ## Characters -/

/-- A space or a tab. -/
def isBlank (c : Char) : Bool := c == ' ' || c == '\t'

/-- A character that ends a line. -/
def isBreak (c : Char) : Bool :=
  c == '\n' || c == '\r' || c == '\x85' || c == '\u2028' || c == '\u2029'

/-- A character that separates words. -/
def isSpace (c : Char) : Bool := isBlank c || isBreak c

/-- A character of names: an ASCII letter or digit, `-` or `_`. -/
def isNameChar (c : Char) : Bool := c.isAlphanum || c == '-' || c == '_'

/-- A character that may stand in a document: most control characters may not. -/
def isAllowed (c : Char) : Bool :=
  let n := c.toNat
  n == 0x09 || n == 0x0A || n == 0x0D || (0x20 ≤ n && n ≤ 0x7E) || n == 0x85 ||
    (0xA0 ≤ n && n ≤ 0xD7FF) || (0xE000 ≤ n && n ≤ 0xFFFD) || 0x10000 ≤ n

/-- True if a separating character or the end of the text comes first. -/
def atSpace (text : List Char) : Bool :=
  match text with
  | [] => true
  | c :: _ => isSpace c

/-- True if the text begins with the mark of the start of a document. -/
def atDocumentStart (text : List Char) : Bool :=
  text.take 3 == ['-', '-', '-'] && atSpace (text.drop 3)

/-- True if the text begins with the mark of the end of a document. -/
def atDocumentEnd (text : List Char) : Bool :=
  text.take 3 == ['.', '.', '.'] && atSpace (text.drop 3)

/-! ## Cursors -/

/-- A position in a text. -/
structure Cursor where
  /-- The text that is left. -/
  rest : List Char
  /-- The number of characters in front. -/
  index : Nat := 0
  /-- The number of lines in front. -/
  line : Nat := 0
  /-- The number of characters in front on the same line. -/
  column : Nat := 0
  deriving Inhabited

namespace Cursor

/-- The next character. -/
def head? (c : Cursor) : Option Char := c.rest.head?

/-- Passes over `n` characters of a line. -/
def skip (c : Cursor) (n : Nat) : Cursor :=
  { c with rest := c.rest.drop n, index := c.index + n, column := c.column + n }

/-- Passes over the characters with a property, none of which ends a line. -/
def skipWhile (c : Cursor) (p : Char → Bool) : Cursor := c.skip (c.rest.takeWhile p).length

/-- Passes over a line break. -/
def skipBreak (c : Cursor) : Cursor :=
  let n := match c.rest with
    | '\r' :: '\n' :: _ => 2
    | _ => 1
  ⟨c.rest.drop n, c.index + n, c.line + 1, 0⟩

/-- The text of the line break that comes next: a line feed, save for the two separators of lines
    and paragraphs, which stand for themselves. -/
def breakText (c : Cursor) : List Char :=
  match c.rest with
  | b :: _ => if b = '\u2028' ∨ b = '\u2029' then [b] else if isBreak b then ['\n'] else []
  | [] => []

/-- True if a space or a tab comes next. -/
def atBlank (c : Cursor) : Bool := (c.head?.map isBlank).getD false

/-- True if a line break comes next. -/
def atBreak (c : Cursor) : Bool := (c.head?.map isBreak).getD false

/-- True if a line starts here with the mark of the start or the end of a document. -/
def atDocumentMark (c : Cursor) : Bool :=
  c.column == 0 && (atDocumentStart c.rest || atDocumentEnd c.rest)

/-- True if `c` is no longer than `d`, as it is behind it. -/
def within (c d : Cursor) : Prop := c.rest.length < d.rest.length

instance (c d : Cursor) : Decidable (c.within d) := inferInstanceAs (Decidable (_ < _))

end Cursor

end Steward.Yaml
