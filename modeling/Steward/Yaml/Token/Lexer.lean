import Steward.Yaml.Token.Property

/-!
# YAML: from text to tokens

`tokens?` splits a text into its tokens. Two things are not written in a text and have to be found
while it is read.

* *Block collections.* One begins where an entry or a key stands deeper than the collection around
  it, and ends where something stands less deep. The columns of the open ones are a stack.
* *Keys.* A `:` makes a key of the node in front of it, so its mark is put in there. For this, each
  level of flow collections remembers where the last node began that can be a key: on the same
  line and at most 1024 characters back.

`load` of a document leaves this to a library for YAML.
-/

namespace Steward.Yaml

/-- The start of a node that can still turn out to be a key. -/
structure KeyCandidate where
  /-- Whether it can be nothing else, as it stands at the column of the block mapping around it. -/
  required : Bool
  /-- The number of tokens in front of it. -/
  position : Nat
  /-- The number of characters in front of it. -/
  index : Nat
  /-- The line it stands on. -/
  line : Nat
  /-- The column it stands at. -/
  column : Nat

/-- What is known when part of a text was read. -/
structure Lexer where
  /-- The text that is left. -/
  cursor : Cursor
  /-- The tokens so far. -/
  tokens : Array Token := #[]
  /-- The candidate for a key in the innermost flow collection, or outside of all. -/
  candidate : Option KeyCandidate := none
  /-- The candidates around each open flow collection. -/
  outer : List (Option KeyCandidate) := []
  /-- The columns of the open block collections, the innermost first. -/
  columns : List Nat := []
  /-- Whether a key may start here. -/
  keyAllowed : Bool := true

namespace Lexer

/-- True inside a flow collection. -/
def inFlow (l : Lexer) : Bool := !l.outer.isEmpty

/-- True if the innermost block collection stands less deep than a column. -/
def isDeeper (l : Lexer) (column : Nat) : Bool :=
  match l.columns with
  | [] => true
  | i :: _ => i < column

/-- Adds a token. -/
def push (l : Lexer) (t : Token) : Lexer := { l with tokens := l.tokens.push t }

/-- Adds a token of `n` characters. -/
def pushIndicator (l : Lexer) (t : Token) (n : Nat := 1) : Lexer :=
  { l.push t with cursor := l.cursor.skip n }

/-! ## Keys -/

/-- A candidate if it can still be a key at a cursor; an error if it has to be one. -/
def refresh? (cursor : Cursor) (k : Option KeyCandidate) : Option (Option KeyCandidate) :=
  match k with
  | none => some none
  | some key =>
    if key.line < cursor.line ∨ key.index + 1024 < cursor.index then
      if key.required then none else some none
    else some (some key)

/-- Drops the candidates that can no longer be keys. -/
def dropStale? (l : Lexer) : Option Lexer := do
  let candidate ← refresh? l.cursor l.candidate
  let outer ← l.outer.mapM (refresh? l.cursor)
  pure { l with candidate, outer }

/-- Drops the innermost candidate. -/
def dropCandidate? (l : Lexer) : Option Lexer :=
  match l.candidate with
  | some key => if key.required then none else some { l with candidate := none }
  | none => some l

/-- Makes a candidate of the node that starts here, if a key may. -/
def markCandidate? (l : Lexer) : Option Lexer :=
  if l.keyAllowed then do
    let cursor := l.cursor
    let required := !l.inFlow && l.columns.head? == some cursor.column
    let l ← l.dropCandidate?
    pure { l with
      candidate := some ⟨required, l.tokens.size, cursor.index, cursor.line, cursor.column⟩ }
  else some l

/-! ## Block collections -/

/-- Begins a block collection with the token `start` if a column is deeper than the innermost one.
    The token goes behind the first `position` tokens. -/
def openBlock (l : Lexer) (column position : Nat) (start : Token) : Lexer :=
  if !l.inFlow && l.isDeeper column then
    { l with
      columns := column :: l.columns
      tokens := l.tokens.insertIdxIfInBounds position start }
  else l

/-- Ends the block collections that are deeper than a column. -/
def closeBlocks (l : Lexer) (column : Nat) : Lexer :=
  if l.inFlow then l
  else
    let ended := l.columns.takeWhile (column < ·)
    { l with
      columns := l.columns.drop ended.length
      tokens := l.tokens ++ ended.map fun _ => Token.blockEnd }

/-- Ends all block collections. -/
def closeAllBlocks (l : Lexer) : Lexer :=
  if l.inFlow then l
  else { l with columns := [], tokens := l.tokens ++ l.columns.map fun _ => Token.blockEnd }

/-! ## Space between tokens -/

/-- The cursor behind the blanks and the comment that come next. A tab is no indentation: at the
    start of a line and behind the indicator of a block collection it is left. -/
def behindBlanks (l : Lexer) : Cursor :=
  let cursor := l.cursor
  let cursor := if cursor.index = 0 ∧ cursor.head? = some '\ufeff' then cursor.skip 1 else cursor
  let tabs := l.inFlow || !l.keyAllowed
  let cursor := cursor.skipWhile fun c => c == ' ' || (tabs && c == '\t')
  if cursor.head? = some '#' then cursor.skipWhile fun c => !isBreak c else cursor

/-- Passes over blanks, comments and line breaks. -/
def skipSpace (l : Lexer) : Lexer :=
  let cursor := l.behindBlanks
  if cursor.atBreak ∧ cursor.skipBreak.within l.cursor then
    skipSpace
      { l with cursor := cursor.skipBreak, keyAllowed := l.keyAllowed || !l.inFlow }
  else { l with cursor }
termination_by l.cursor.rest.length
decreasing_by
  rename_i h
  simpa [Cursor.within] using h.2

/-! ## Tokens -/

/-- The mark of the start or the end of a document. -/
def documentMark? (l : Lexer) (t : Token) : Option Lexer := do
  let l ← l.closeAllBlocks.dropCandidate?
  pure { l.pushIndicator t 3 with keyAllowed := false }

/-- A directive. -/
def directive? (l : Lexer) : Option Lexer := do
  let l ← l.closeAllBlocks.dropCandidate?
  let (t, cursor) ← readDirective? (l.cursor.skip 1)
  pure { l.push t with cursor, keyAllowed := false }

/-- The start of a flow collection. -/
def flowStart? (l : Lexer) (t : Token) : Option Lexer := do
  let l ← l.markCandidate?
  pure { l.pushIndicator t with
    outer := l.candidate :: l.outer, candidate := none, keyAllowed := true }

/-- The end of a flow collection. -/
def flowEnd? (l : Lexer) (t : Token) : Option Lexer := do
  let l ← l.dropCandidate?
  pure { l.pushIndicator t with
    outer := l.outer.tail, candidate := l.outer.head?.join, keyAllowed := false }

/-- `,` -/
def flowEntry? (l : Lexer) : Option Lexer := do
  let l ← l.dropCandidate?
  pure { l.pushIndicator .flowEntry with keyAllowed := true }

/-- `-` -/
def blockEntry? (l : Lexer) : Option Lexer := do
  if !l.inFlow && !l.keyAllowed then none
  else
    let l ← (l.openBlock l.cursor.column l.tokens.size .blockSequenceStart).dropCandidate?
    pure { l.pushIndicator .blockEntry with keyAllowed := true }

/-- `?` -/
def explicitKey? (l : Lexer) : Option Lexer := do
  if !l.inFlow && !l.keyAllowed then none
  else
    let l ← (l.openBlock l.cursor.column l.tokens.size .blockMappingStart).dropCandidate?
    pure { l.pushIndicator .key with keyAllowed := !l.inFlow }

/-- `:` -/
def value? (l : Lexer) : Option Lexer :=
  match l.candidate with
  | some key =>
    let l := { l with tokens := l.tokens.insertIdxIfInBounds key.position .key, candidate := none }
    let l := l.openBlock key.column key.position .blockMappingStart
    some { l.pushIndicator .value with keyAllowed := false }
  | none =>
    if !l.inFlow && !l.keyAllowed then none
    else
      let l := l.openBlock l.cursor.column l.tokens.size .blockMappingStart
      some { l.pushIndicator .value with keyAllowed := !l.inFlow }

/-- A token in front of a node or in place of one: an anchor, an alias or a tag. -/
def property? (l : Lexer) (read? : Cursor → Option (Token × Cursor)) : Option Lexer := do
  let l ← l.markCandidate?
  let (t, cursor) ← read? (l.cursor.skip 1)
  pure { l.push t with cursor, keyAllowed := false }

/-- A scalar on one or more lines; a key may follow if a new line has begun. -/
def scalar? (l : Lexer) (plain : Bool) (read? : Cursor → Option ScalarReading) :
    Option Lexer := do
  let l ← l.markCandidate?
  let r ← read? l.cursor
  pure { l.push (.scalar (String.ofList r.text) plain) with
    cursor := r.behind, keyAllowed := r.newLine }

/-- A block scalar. -/
def blockScalar? (l : Lexer) (literal : Bool) : Option Lexer := do
  let l ← l.dropCandidate?
  let r ← readBlock? literal l.columns.head? (l.cursor.skip 1)
  pure { l.push (.scalar (String.ofList r.text) false) with
    cursor := r.behind, keyAllowed := true }

/-- True if a plain scalar may start with `c`, in front of `rest`. -/
def startsPlain (inFlow : Bool) (c : Char) (rest : List Char) : Bool :=
  (!isSpace c && !"-?:,[]\x7b\x7d#&*!|>'\"%@\x60".toList.contains c) ||
    (c == '-' && !(rest.head?.map isBlank).getD false) ||
    (!inFlow && (c == '?' || c == ':') && !atSpace rest)

/-- Reads the token that starts with `c`, in front of `rest`. -/
def token? (l : Lexer) (c : Char) (rest : List Char) : Option Lexer :=
  let lineStart := l.cursor.column == 0
  let indicator := l.inFlow || atSpace rest
  if lineStart && c == '%' then l.directive?
  else if lineStart && atDocumentStart l.cursor.rest then l.documentMark? .documentStart
  else if lineStart && atDocumentEnd l.cursor.rest then l.documentMark? .documentEnd
  else if c = '[' then l.flowStart? .flowSequenceStart
  else if c = '\x7b' then l.flowStart? .flowMappingStart
  else if c = ']' then l.flowEnd? .flowSequenceEnd
  else if c = '\x7d' then l.flowEnd? .flowMappingEnd
  else if c = ',' then l.flowEntry?
  else if c == '-' && atSpace rest then l.blockEntry?
  else if c == '?' && indicator then l.explicitKey?
  else if c == ':' && indicator then l.value?
  else if c = '*' then
    l.property? fun cursor => (readAnchor? cursor).map fun r => (.alias r.1, r.2)
  else if c = '&' then
    l.property? fun cursor => (readAnchor? cursor).map fun r => (.anchor r.1, r.2)
  else if c = '!' then l.property? (readTag? l.inFlow)
  else if c == '|' && !l.inFlow then l.blockScalar? true
  else if c == '>' && !l.inFlow then l.blockScalar? false
  else if c = '\'' then l.scalar? false fun cursor => readQuoted? false [] (cursor.skip 1)
  else if c = '"' then l.scalar? false fun cursor => readQuoted? true [] (cursor.skip 1)
  else if startsPlain l.inFlow c rest then
    l.scalar? true (readPlain? l.inFlow ((l.columns.head?.map (· + 1)).getD 0) [] {})
  else none

/-- Reads the tokens that are left. -/
def run? (l : Lexer) : Option (Array Token) :=
  let start := l.skipSpace
  match start.dropStale? with
  | none => none
  | some s =>
    match s.cursor.rest with
    | [] => s.closeAllBlocks.dropCandidate?.map Lexer.tokens
    | c :: rest =>
      match (s.closeBlocks s.cursor.column).token? c rest with
      | none => none
      | some next => if next.cursor.within l.cursor then run? next else none
termination_by l.cursor.rest.length
decreasing_by simpa [Cursor.within] using ‹_›

end Lexer

/-- The tokens of a text, or `none` if it has a character that may not stand in a document or a
    token that is malformed or out of place. -/
def tokens? (text : String) : Option (List Token) :=
  if text.toList.all isAllowed then
    (Lexer.run? { cursor := { rest := text.toList } }).map Array.toList
  else none

end Steward.Yaml
