import Steward.Number.Decimal
import Steward.Yaml.Cursor

/-!
# YAML: the text of scalars

Readers for plain, quoted and block scalars. Each takes a cursor at the first character of the
scalar and gives its text with the cursor behind it, or `none` if the text is malformed.

Lines are folded: the gap between two words is kept if it lies on one line, becomes a space if it
holds one line break, and otherwise becomes its line breaks without the first. A block scalar in
`|` form keeps its line breaks.

`load` of a document leaves this to a library for YAML.
-/

namespace Steward.Yaml

/-! ## Gaps between words -/

/-- What stands between two words of a scalar. -/
structure Gap where
  /-- The blanks, as long as there was no line break. -/
  blanks : List Char := []
  /-- The first line break. -/
  firstBreak : List Char := []
  /-- The other line breaks. -/
  otherBreaks : List Char := []
  /-- Whether a new line has begun. -/
  newLine : Bool := false

/-- What a gap becomes inside the scalar. -/
def Gap.folded (g : Gap) : List Char :=
  if g.newLine then
    if g.firstBreak = ['\n'] then
      if g.otherBreaks = [] then [' '] else g.otherBreaks
    else g.firstBreak ++ g.otherBreaks
  else g.blanks

/-- Passes over blanks and line breaks. On a new line, a tab in front of column `indent` is an
    error. -/
def readGap? (indent : Nat) (g : Gap) (c : Cursor) : Option (Gap × Cursor) :=
  match c.rest with
  | [] => some (g, c)
  | b :: _ =>
    if isBlank b then
      if g.newLine ∧ c.column < indent ∧ b = '\t' then none
      else
        let next := c.skip 1
        if next.within c then
          readGap? indent (if g.newLine then g else { g with blanks := g.blanks ++ [b] }) next
        else none
    else if isBreak b then
      let next := c.skipBreak
      if next.within c then
        readGap? indent
          (if g.newLine then { g with otherBreaks := g.otherBreaks ++ c.breakText }
            else { g with blanks := [], firstBreak := c.breakText, newLine := true }) next
      else none
    else some (g, c)
termination_by c.rest.length
decreasing_by all_goals simpa [Cursor.within] using ‹_›

/-! ## Plain scalars -/

/-- The characters that end a plain scalar inside flow collections. -/
def isFlowIndicator (c : Char) : Bool :=
  c == ',' || c == '[' || c == ']' || c == '\x7b' || c == '\x7d'

/-- The length of the word that comes next in a plain scalar, which may be none. Inside flow
    collections, a `:` in front of an indicator is an error. -/
def plainWordLength? (inFlow : Bool) : List Char → Option Nat
  | [] => some 0
  | c :: rest =>
    if isSpace c then some 0
    else if inFlow ∧ c = ':' ∧ (rest.head?.map fun d => isFlowIndicator d || d == '?').getD false
      then none
    else if c = ':' ∧ atSpace rest then some 0
    else if inFlow ∧ isFlowIndicator c then some 0
    else (plainWordLength? inFlow rest).map (· + 1)

/-- A scalar that was read. -/
structure ScalarReading where
  /-- Its text. -/
  text : List Char
  /-- The cursor behind it. -/
  behind : Cursor
  /-- Whether a new line has begun behind it. -/
  newLine : Bool := false

/-- Reads on in a plain scalar, whose words so far are `text` and which a gap follows. Its lines
    start at column `indent` at least, inside flow collections anywhere. -/
def readPlain? (inFlow : Bool) (indent : Nat) (text : List Char) (g : Gap) (c : Cursor) :
    Option ScalarReading :=
  if c.atDocumentMark ∨ c.head? = some '#' then some ⟨text, c, g.newLine⟩
  else
    match plainWordLength? inFlow c.rest with
    | none => none
    | some n =>
      let text := if n = 0 then text else text ++ g.folded ++ c.rest.take n
      let g := if n = 0 then g else {}
      let next := c.skip n
      if next.atBlank ∨ next.atBreak then
        match readGap? indent g next with
        | none => none
        | some (g, next) =>
          if !inFlow ∧ next.column < indent then some ⟨text, next, g.newLine⟩
          else if next.within c then readPlain? inFlow indent text g next
          else none
      else some ⟨text, next, g.newLine⟩
termination_by c.rest.length
decreasing_by simpa [Cursor.within] using ‹_›

/-! ## Quoted scalars -/

/-- The character with the given hexadecimal code, `n` digits long. -/
def hexEscape? (n : Nat) (text : List Char) : Option (Char × Nat) :=
  let digits := text.take n
  if digits.length = n then
    (Decimal.readNat? 16 digits).bind fun v =>
      if v.isValidChar then some (Char.ofNat v, n + 2) else none
  else none

/-- The character that an escape sequence stands for, and the length of the sequence with its
    backslash. -/
def escape? : List Char → Option (Char × Nat)
  | [] => none
  | c :: rest =>
    match c with
    | '0' => some ('\x00', 2)
    | 'a' => some ('\x07', 2)
    | 'b' => some ('\x08', 2)
    | 't' => some ('\t', 2)
    | '\t' => some ('\t', 2)
    | 'n' => some ('\n', 2)
    | 'v' => some ('\x0b', 2)
    | 'f' => some ('\x0c', 2)
    | 'r' => some ('\r', 2)
    | 'e' => some ('\x1b', 2)
    | ' ' => some (' ', 2)
    | '"' => some ('"', 2)
    | '/' => some ('/', 2)
    | '\\' => some ('\\', 2)
    | 'N' => some ('\x85', 2)
    | '_' => some ('\xa0', 2)
    | 'L' => some ('\u2028', 2)
    | 'P' => some ('\u2029', 2)
    | 'x' => hexEscape? 2 rest
    | 'u' => hexEscape? 4 rest
    | 'U' => hexEscape? 8 rest
    | _ => none

/-- Reads on in a quoted scalar, whose text so far is `text`. -/
def readQuoted? (double : Bool) (text : List Char) (c : Cursor) : Option ScalarReading :=
  let go (text : List Char) (next : Cursor) : Option ScalarReading :=
    if next.within c then readQuoted? double text next else none
  let gap (g : Gap) (next : Cursor) : Option ScalarReading :=
    match readGap? 0 g next with
    | none => none
    | some (g, next) =>
      if next.atDocumentMark then none else go (text ++ g.folded) next
  match c.rest with
  | [] => none
  | q :: rest =>
    if isSpace q then gap {} c
    else if !double ∧ q = '\'' then
      if rest.head? = some '\'' then go (text ++ ['\'']) (c.skip 2) else some ⟨text, c.skip 1, false⟩
    else if double ∧ q = '"' then some ⟨text, c.skip 1, false⟩
    else if double ∧ q = '\\' then
      if (c.skip 1).atBreak then gap { newLine := true } (c.skip 1).skipBreak
      else
        match escape? rest with
        | some (x, n) => go (text ++ [x]) (c.skip n)
        | none => none
    else go (text ++ [q]) (c.skip 1)
termination_by c.rest.length
decreasing_by simpa [Cursor.within] using ‹_›

/-! ## Block scalars -/

/-- What becomes of the line breaks at the end of a block scalar. -/
inductive Chomping where
  /-- None stays. -/
  | strip
  /-- The first stays. -/
  | clip
  /-- All stay. -/
  | keep
  deriving DecidableEq, Repr

/-- The sign for what becomes of the line breaks at the end. -/
def chomping? : Char → Option Chomping
  | '+' => some .keep
  | '-' => some .strip
  | _ => none

/-- Reads the signs behind the indicator of a block scalar: what becomes of the line breaks at its
    end, and the depth of its indentation, in any order. -/
def readHeader? (c : Cursor) : Option (Chomping × Option Nat × Cursor) :=
  let depth? (d : Char) : Option Nat := if d.isDigit then some (d.toNat - '0'.toNat) else none
  match c.rest with
  | a :: rest =>
    match chomping? a, depth? a with
    | some k, _ =>
      match rest.head?.bind depth? with
      | some 0 => none
      | some n => some (k, some n, c.skip 2)
      | none => some (k, none, c.skip 1)
    | none, some 0 => none
    | none, some n =>
      match rest.head?.bind chomping? with
      | some k => some (k, some n, c.skip 2)
      | none => some (.clip, some n, c.skip 1)
    | none, none => some (.clip, none, c)
  | [] => some (.clip, none, c)

/-- Passes over the rest of a line, which may hold blanks and a comment. -/
def endLine? (c : Cursor) : Option Cursor :=
  let c := c.skipWhile isBlank
  let c := if c.head? = some '#' then c.skipWhile fun x => !isBreak x else c
  match c.rest with
  | [] => some c
  | b :: _ => if isBreak b then some c.skipBreak else none

/-- Passes over the indentation and over empty lines in a block scalar, up to column `indent` if it
    is known. Gives the line breaks and the greatest column that was reached. -/
def readEmptyLines? (indent : Option Nat) (breaks : List Char) (deepest : Nat) (c : Cursor) :
    Option (List Char × Nat × Cursor) :=
  let inside (column : Nat) : Bool := (indent.map fun i => decide (column < i)).getD true
  let spaces := (c.rest.takeWhile (· == ' ')).length
  let next := c.skip ((indent.map fun i => min spaces (i - c.column)).getD spaces)
  let deepest := max deepest next.column
  if inside next.column ∧ next.head? = some '\t' then none
  else if next.atBreak then
    if next.skipBreak.within c then
      readEmptyLines? indent (breaks ++ next.breakText) deepest next.skipBreak
    else none
  else some (breaks, deepest, next)
termination_by c.rest.length
decreasing_by simpa [Cursor.within] using ‹_›

/-- Reads the lines of a block scalar that start at column `indent`. The text so far ends without
    its last line break, which is `lastBreak`; `emptyLines` are the breaks of the empty lines behind
    it, and `blankBefore` tells whether the last line began with a blank. -/
def readBlockLines? (literal : Bool) (indent : Nat) (text lastBreak emptyLines : List Char)
    (blankBefore : Bool) (c : Cursor) : Option (List Char × List Char × List Char × Cursor) :=
  if c.column = indent ∧ c.rest ≠ [] then
    let blank := c.atBlank
    let folds := !literal && lastBreak.head? == some '\n' && !blankBefore && !blank
    let joint :=
      if folds then (if emptyLines = [] then [' '] else []) else lastBreak
    let line := c.rest.takeWhile fun x => !isBreak x
    let text := text ++ joint ++ emptyLines ++ line
    let ending := c.skip line.length
    let next := if ending.rest = [] then ending else ending.skipBreak
    match readEmptyLines? (some indent) [] 0 next with
    | none => none
    | some (breaks, _, next) =>
      if next.within c then
        readBlockLines? literal indent text ending.breakText breaks blank next
      else none
  else some (text, lastBreak, emptyLines, c)
termination_by c.rest.length
decreasing_by simpa [Cursor.within] using ‹_›

/-- Reads a block scalar behind its indicator. `parentIndent` is the column of the collection it
    belongs to, if there is one. Its own indentation is given in its header, or is that of its first
    line that is not empty, but deeper than that of the collection. -/
def readBlock? (literal : Bool) (parentIndent : Option Nat) (c : Cursor) :
    Option ScalarReading := do
  let (chomping, depth, c) ← readHeader? c
  let c ← endLine? c
  let given := depth.map fun n => (parentIndent.map (· + n)).getD n
  let (breaks, deepest, c) ← readEmptyLines? given [] 0 c
  let least := (parentIndent.map (· + 1)).getD 0
  let indent := given.getD (max (max deepest least) 1)
  let (text, lastBreak, emptyLines, c) ← readBlockLines? literal indent [] [] breaks false c
  let ending := match chomping with
    | .strip => []
    | .clip => lastBreak
    | .keep => lastBreak ++ emptyLines
  pure ⟨text ++ ending, c, false⟩

end Steward.Yaml
