import Steward.Toml.Value

/-!
# TOML: characters, strings, numbers and dates

Readers for the smallest parts of a TOML document. A reader takes the text from where the part
begins and gives the part with the text behind it, or `none` if the document is malformed there.

`parse_file` leaves this to a library for TOML.
-/

namespace Steward.Toml

/-! ## Lines -/

/-- A space or a tab. -/
def isWs (c : Char) : Bool := c == ' ' || c == '\t'

/-- The text without spaces and tabs in front. -/
def skipWs (text : List Char) : List Char := text.dropWhile isWs

/-- The text behind a line break. -/
def newline? : List Char → Option (List Char)
  | '\n' :: rest => some rest
  | '\r' :: '\n' :: rest => some rest
  | _ => none

/-- A character that may stand on a line: a tab, or no control character. -/
def isLineChar (c : Char) : Bool := c == '\t' || (' ' ≤ c && c ≠ '\x7f')

/-- The text behind a comment, if there is one. -/
def skipComment : List Char → List Char
  | '#' :: rest => rest.dropWhile isLineChar
  | text => text

/-- The text behind the end of a line, which may hold blanks and a comment before the break. -/
def lineEnd? (text : List Char) : Option (List Char) :=
  match skipComment (skipWs text) with
  | [] => some []
  | rest => newline? rest

/-- The text behind blanks, comments and line breaks. A comment has to end with a break. -/
def skipLines? (text : List Char) : Option (List Char) :=
  match skipWs text with
  | [] => some []
  | c :: rest =>
    if c = '#' ∨ c = '\n' ∨ c = '\r' then
      match newline? (skipComment (c :: rest)) with
      | some next => if next.length < text.length then skipLines? next else none
      | none => none
    else some (c :: rest)
termination_by text.length

/-- The text without blanks and line breaks in front. -/
def skipBlankLines (text : List Char) : List Char :=
  match skipWs text with
  | '\n' :: rest => if rest.length < text.length then skipBlankLines rest else rest
  | '\r' :: '\n' :: rest => if rest.length < text.length then skipBlankLines rest else rest
  | rest => rest
termination_by text.length

/-! ## Strings -/

/-- The character with the given hexadecimal code, `n` digits long. -/
def hexEscape? (n : Nat) (text : List Char) : Option (Char × List Char) :=
  let digits := text.take n
  if digits.length = n then
    (Decimal.readNat? 16 digits).bind fun v =>
      if v.isValidChar then some (Char.ofNat v, text.drop n) else none
  else none

/-- The character that the text behind a backslash stands for. -/
def escape? : List Char → Option (Char × List Char)
  | 'b' :: rest => some ('\x08', rest)
  | 't' :: rest => some ('\t', rest)
  | 'n' :: rest => some ('\n', rest)
  | 'f' :: rest => some ('\x0c', rest)
  | 'r' :: rest => some ('\r', rest)
  | '"' :: rest => some ('"', rest)
  | '\\' :: rest => some ('\\', rest)
  | 'u' :: rest => hexEscape? 4 rest
  | 'U' :: rest => hexEscape? 8 rest
  | _ => none

/-- A text read from a document, with what stands behind it. -/
abbrev Reading := List Char × List Char

/-- Puts a character in front of what was read. -/
def Reading.cons (c : Char) (r : Reading) : Reading := (c :: r.1, r.2)

/-- The rest of a string in double quotes. -/
def basicString? (text : List Char) : Option Reading :=
  match text with
  | [] => none
  | '"' :: rest => some ([], rest)
  | '\\' :: rest =>
    match escape? rest with
    | some (c, next) =>
      if next.length ≤ rest.length then (basicString? next).map (Reading.cons c) else none
    | none => none
  | c :: rest => if isLineChar c then (basicString? rest).map (Reading.cons c) else none
termination_by text.length

/-- The rest of a string in apostrophes. -/
def literalString? : List Char → Option Reading
  | [] => none
  | '\'' :: rest => some ([], rest)
  | c :: rest => if isLineChar c then (literalString? rest).map (Reading.cons c) else none

/-- What follows the three quotes that end a string of many lines: up to two more quotes still
    belong to the string. -/
def closeQuotes (quote : Char) (text : List Char) : Reading :=
  let extra := ((text.take 2).takeWhile (· = quote)).length
  (List.replicate extra quote, text.drop extra)

/-- The text behind a backslash at the end of a line, which takes the blanks and line breaks that
    follow with it. -/
def lineContinuation? (text : List Char) : Option (List Char) :=
  (newline? (skipWs text)).map skipBlankLines

/-- The rest of a string in three double quotes. -/
def basicLines? (text : List Char) : Option Reading :=
  match text with
  | [] => none
  | '"' :: '"' :: '"' :: rest => some (closeQuotes '"' rest)
  | '\\' :: rest =>
    match lineContinuation? rest with
    | some next => if next.length ≤ rest.length then basicLines? next else none
    | none =>
      match escape? rest with
      | some (c, next) =>
        if next.length ≤ rest.length then (basicLines? next).map (Reading.cons c) else none
      | none => none
  | '\n' :: rest => (basicLines? rest).map (Reading.cons '\n')
  | '\r' :: '\n' :: rest => (basicLines? rest).map (Reading.cons '\n')
  | c :: rest => if isLineChar c then (basicLines? rest).map (Reading.cons c) else none
termination_by text.length

/-- The rest of a string in three apostrophes. -/
def literalLines? : List Char → Option Reading
  | [] => none
  | '\'' :: '\'' :: '\'' :: rest => some (closeQuotes '\'' rest)
  | '\n' :: rest => (literalLines? rest).map (Reading.cons '\n')
  | '\r' :: '\n' :: rest => (literalLines? rest).map (Reading.cons '\n')
  | c :: rest => if isLineChar c then (literalLines? rest).map (Reading.cons c) else none

/-- A string of many lines does not hold the line break that follows its opening quotes. -/
def dropFirstBreak (text : List Char) : List Char := (newline? text).getD text

/-- A string of any of the four kinds. -/
def string? (text : List Char) : Option Reading :=
  match text with
  | '"' :: '"' :: '"' :: rest => basicLines? (dropFirstBreak rest)
  | '"' :: rest => basicString? rest
  | '\'' :: '\'' :: '\'' :: rest => literalLines? (dropFirstBreak rest)
  | '\'' :: rest => literalString? rest
  | _ => none

/-! ## Keys -/

/-- The characters of a bare key. -/
def isBareKeyChar (c : Char) : Bool := c.isAlphanum || c == '-' || c == '_'

/-- One key: a string of one line, or a bare key. -/
def simpleKey? (text : List Char) : Option Reading :=
  match text with
  | '"' :: rest => basicString? rest
  | '\'' :: rest => literalString? rest
  | _ =>
    match text.takeWhile isBareKeyChar with
    | [] => none
    | name => some (name, text.dropWhile isBareKeyChar)

/-- Keys joined by dots, with blanks around them. -/
def keys? (text : List Char) : Option (List String × List Char) :=
  match simpleKey? (skipWs text) with
  | none => none
  | some (name, behind) =>
    match skipWs behind with
    | '.' :: next =>
      if next.length < text.length then
        (keys? next).map fun r => (String.ofList name :: r.1, r.2)
      else none
    | rest => some ([String.ofList name], rest)
termination_by text.length

/-- How deep tables and arrays may lie in each other, and how long a path of keys may be. -/
def nestingLimit : Nat := 79

/-- A path of keys, which may not be longer than the nesting limit. -/
def keyPath? (text : List Char) : Option (List String × List Char) :=
  (keys? text).filter fun r => r.1.length ≤ nestingLimit

/-! ## Numbers -/

/-- Digits of a base, single underscores between them allowed; at least one. The underscores are
    left out of what is read. -/
def digits? (isDigit : Char → Bool) : List Char → Option Reading
  | [] => none
  | [c] => if isDigit c then some ([c], []) else none
  | c :: '_' :: next => if isDigit c then (digits? isDigit next).map (Reading.cons c) else none
  | c :: d :: next =>
    if !isDigit c then none
    else if isDigit d then (digits? isDigit (d :: next)).map (Reading.cons c)
    else some ([c], d :: next)

/-- The digits of a whole number: a zero alone, or digits that do not begin with one. -/
def wholeDigits? (text : List Char) : Option Reading :=
  match text with
  | '0' :: rest => some (['0'], rest)
  | _ => digits? Char.isDigit text

/-- An exponent, if there is one. -/
def exponent? (text : List Char) : Option Reading :=
  match text with
  | c :: rest =>
    if c = 'e' ∨ c = 'E' then
      match rest with
      | '+' :: next => (digits? Char.isDigit next).map fun r => ('e' :: r.1, r.2)
      | '-' :: next => (digits? Char.isDigit next).map fun r => ('e' :: '-' :: r.1, r.2)
      | _ => (digits? Char.isDigit rest).map fun r => ('e' :: r.1, r.2)
    else some ([], text)
  | [] => some ([], [])

/-- The decimal places of a number, if there are some. -/
def places? (text : List Char) : Option Reading :=
  match text with
  | '.' :: rest => (digits? Char.isDigit rest).map fun r => ('.' :: r.1, r.2)
  | _ => some ([], text)

/-- A whole number of 64 bits. -/
def Value.ofInt? (n : Int) : Option Value :=
  if n.bmod UInt64.size = n then some (.integer n) else none

/-- A floating point number; a decimal above all of them is refused. -/
def Value.ofDecimal? (d : Decimal) : Option Value :=
  match Binary64.ofDecimal d with
  | .infinite false => none
  | x => some (.float x)

/-- A whole number in the given base, behind its mark. -/
def basedInteger? (base : Nat) (text : List Char) : Option (Value × List Char) :=
  (digits? (fun c => Decimal.digitValue c < base) text).bind fun r =>
    (Value.ofInt? (Decimal.ofDigits base r.1)).map (·, r.2)

/-- A number in base ten behind its sign, or one of the special numbers. -/
def decimalNumber? (negative : Bool) (text : List Char) : Option (Value × List Char) :=
  match text with
  | 'i' :: 'n' :: 'f' :: rest => some (.float (.infinite negative), rest)
  | 'n' :: 'a' :: 'n' :: rest => some (.float .nan, rest)
  | _ => do
    let (whole, rest) ← wholeDigits? text
    let (places, rest) ← places? rest
    let (power, rest) ← exponent? rest
    if places = [] ∧ power = [] then
      let n : Int := Decimal.ofDigits 10 whole
      let v ← Value.ofInt? (if negative then -n else n)
      pure (v, rest)
    else
      let d ← Decimal.readUnsigned? (whole ++ places ++ power)
      let v ← Value.ofDecimal? { d with negative := negative }
      pure (v, rest)

/-- A number. -/
def number? (text : List Char) : Option (Value × List Char) :=
  match text with
  | '0' :: 'x' :: rest => basedInteger? 16 rest
  | '0' :: 'o' :: rest => basedInteger? 8 rest
  | '0' :: 'b' :: rest => basedInteger? 2 rest
  | '+' :: rest => decimalNumber? false rest
  | '-' :: rest => decimalNumber? true rest
  | _ => decimalNumber? false text

/-! ## Dates and times -/

/-- A number of exactly `n` digits between `low` and `high`. -/
def fixedDigits? (n low high : Nat) (text : List Char) : Option (Nat × List Char) :=
  let digits := text.take n
  if digits.length = n ∧ digits.all Char.isDigit then
    let v := Decimal.ofDigits 10 digits
    if low ≤ v ∧ v ≤ high then some (v, text.drop n) else none
  else none

/-- The text behind an expected character. -/
def expect? (c : Char) : List Char → Option (List Char)
  | d :: rest => if d = c then some rest else none
  | [] => none

/-- How many days a month has. -/
def daysIn (year month : Nat) : Nat :=
  if month = 2 then
    if year % 4 = 0 ∧ (year % 100 ≠ 0 ∨ year % 400 = 0) then 29 else 28
  else if month = 4 ∨ month = 6 ∨ month = 9 ∨ month = 11 then 30 else 31

/-- The text behind a date. -/
def afterDate? (text : List Char) : Option (List Char) := do
  let (year, rest) ← fixedDigits? 4 0 9999 text
  let rest ← expect? '-' rest
  let (month, rest) ← fixedDigits? 2 1 12 rest
  let rest ← expect? '-' rest
  let (_, rest) ← fixedDigits? 2 1 (daysIn year month) rest
  pure rest

/-- The text behind a time of day; a second may be a leap second. -/
def afterTime? (text : List Char) : Option (List Char) := do
  let (_, rest) ← fixedDigits? 2 0 23 text
  let rest ← expect? ':' rest
  let (_, rest) ← fixedDigits? 2 0 59 rest
  let rest ← expect? ':' rest
  let (_, rest) ← fixedDigits? 2 0 60 rest
  match rest with
  | '.' :: d :: next => pure (if d.isDigit then next.dropWhile Char.isDigit else rest)
  | _ => pure rest

/-- The text behind a distance from universal time, if there is one. -/
def afterOffset? (text : List Char) : Option (List Char) :=
  match text with
  | c :: rest =>
    if c = 'Z' ∨ c = 'z' then some rest
    else if c = '+' ∨ c = '-' then do
      let (_, rest) ← fixedDigits? 2 0 23 rest
      let rest ← expect? ':' rest
      let (_, rest) ← fixedDigits? 2 0 59 rest
      pure rest
    else some text
  | [] => some []

/-- True if the text begins like a date. -/
def looksLikeDate (text : List Char) : Bool :=
  ((fixedDigits? 4 0 9999 text).bind fun r => expect? '-' r.2).isSome

/-- True if the text begins like a time of day. -/
def looksLikeTime (text : List Char) : Bool :=
  ((fixedDigits? 2 0 99 text).bind fun r => expect? ':' r.2).isSome

/-- The text behind a date, a time of day, or a date with a time, which may name its distance from
    universal time. A date and its time are joined by `T` or by one space. -/
def afterMoment? (text : List Char) : Option (List Char) :=
  if looksLikeDate text then
    (afterDate? text).bind fun behind =>
      match behind with
      | c :: next =>
        if (c = 'T' ∨ c = 't' ∨ c = ' ') ∧ looksLikeTime next then
          (afterTime? next).bind afterOffset?
        else some behind
      | [] => some []
  else afterTime? text

/-- A date or a number. -/
def numberOrMoment? (text : List Char) : Option (Value × List Char) :=
  if looksLikeDate text || looksLikeTime text then
    (afterMoment? text).map fun rest =>
      (.moment (String.ofList (text.take (text.length - rest.length))), rest)
  else number? text

end Steward.Toml
