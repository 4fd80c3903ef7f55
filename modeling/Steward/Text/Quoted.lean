import Steward.Text.Printable

/-!
# Quoted text

The form in which texts stand in log lines and in descriptions of values: between double quotes,
with a backslash in front of a double quote or a backslash, short escapes for the common control
characters, and the code point in hexadecimal for every other character that would not show, or
that would join the character in front of it.

`fmt` shows texts in this form, in the log and in what describes settings, clients and errors.
-/

namespace Steward.Text

/-- How a kind of text is quoted. -/
structure QuoteStyle where
  /-- Whether an apostrophe gets a backslash. -/
  escapesApostrophe : Bool

/-- Ordinary texts leave an apostrophe alone. -/
def plainQuotes : QuoteStyle := ⟨false⟩

/-- File paths escape an apostrophe as well. -/
def pathQuotes : QuoteStyle := ⟨true⟩

/-- A character given by its code point. -/
def escapeCodePoint (c : Char) : List Char :=
  "\\u\x7b".toList ++ Nat.toDigits 16 c.toNat ++ ['}']

/-- A character inside quotes. -/
def QuoteStyle.escape (style : QuoteStyle) (c : Char) : List Char :=
  if c = '\x00' then ['\\', '0']
  else if c = '\t' then ['\\', 't']
  else if c = '\n' then ['\\', 'n']
  else if c = '\r' then ['\\', 'r']
  else if c = '\\' ∨ c = '"' then ['\\', c]
  else if c = '\'' ∧ style.escapesApostrophe then ['\\', c]
  else if isExtending c ∨ !isPrintable c then escapeCodePoint c
  else [c]

/-- A text between quotes. -/
def QuoteStyle.quote (style : QuoteStyle) (text : String) : String :=
  String.ofList ('"' :: text.toList.flatMap style.escape ++ ['"'])

/-- A text between quotes, in the ordinary style. -/
def quote (text : String) : String := plainQuotes.quote text

/-- Quoted texts in square brackets. -/
def quoteList (texts : List String) : String :=
  "[" ++ ", ".intercalate (texts.map quote) ++ "]"

end Steward.Text
