import Steward.World.Environment

/-!
# Variable references in configuration text

A `$` starts a reference:
* `${` and a non-empty text up to the first `}` refers to that text, whatever its characters;
* one of `*#$@!?-` or a digit is a name of one character;
* otherwise the longest run of ASCII letters, digits and `_` is the name.

`${}` is dropped, and so are the two characters `${` when no `}` follows. A `$` before anything
else, or at the end, stands for itself.

The text is first cut into pieces (`pieces`), without any look-up; the expansion then replaces each
reference by its value, or by nothing. So values are never scanned again, and the names looked up
(`references`) do not depend on the values.

`expand` is `expand_with`, `expandEnvironment` is `expand_env`, `readReference` is `variable_name`,
and `isSpecialName` is `is_special`.
-/

namespace Steward.Config

/-- The characters that are a whole name on their own. -/
def isSpecialName (c : Char) : Bool := "*#$@!?-".toList.contains c || c.isDigit

/-- The characters of an ordinary name. -/
def isNameChar (c : Char) : Bool := c.isAlphanum || c == '_'

/-- A part of the scanned text. -/
inductive Piece where
  /-- A character that is copied. -/
  | copied (c : Char)
  /-- A reference to a variable. -/
  | reference (name : List Char)
  /-- Malformed syntax that leaves nothing behind. -/
  | dropped
  deriving Repr, DecidableEq

/-- What a `$` in front of `rest` stands for, and the text behind it. -/
def readReference (rest : List Char) : Piece × List Char :=
  match rest with
  | [] => (.copied '$', [])
  | c :: tail =>
    if c = '{' then
      match tail.dropWhile (· ≠ '}') with
      | [] => (.dropped, tail)
      | _ :: behind =>
        match tail.takeWhile (· ≠ '}') with
        | [] => (.dropped, behind)
        | name => (.reference name, behind)
    else if isSpecialName c then (.reference [c], tail)
    else if isNameChar c then
      (.reference (c :: tail.takeWhile isNameChar), tail.dropWhile isNameChar)
    else (.copied '$', rest)

theorem length_readReference_le (rest : List Char) :
    (readReference rest).2.length ≤ rest.length := by
  have hdrop (p : Char → Bool) (l : List Char) : (l.dropWhile p).length ≤ l.length :=
    (List.dropWhile_sublist p).length_le
  unfold readReference
  split
  · simp
  · rename_i c tail
    split
    · split
      · simp
      · rename_i x behind h
        have := hdrop (· ≠ '}') tail
        rw [h] at this
        split <;> simp_all <;> omega
    · split
      · simp
      · split
        · have := hdrop isNameChar tail
          simp only [List.length_cons]
          omega
        · simp

/-- The pieces of a text, from left to right. -/
def pieces : List Char → List Piece
  | [] => []
  | c :: rest =>
    if c = '$' then (readReference rest).1 :: pieces (readReference rest).2
    else .copied c :: pieces rest
termination_by text => text.length
decreasing_by
  · have := length_readReference_le rest
    simp only [List.length_cons]
    omega
  · simp

/-- The names that a text refers to, in order. -/
def references (text : List Char) : List String :=
  (pieces text).filterMap fun
    | .reference name => some (String.ofList name)
    | _ => none

/-- What a piece becomes when values come from `lookup`: an unset variable is empty. -/
def Piece.render (lookup : String → Option String) : Piece → List Char
  | .copied c => [c]
  | .reference name => ((lookup (String.ofList name)).getD "").toList
  | .dropped => []

/-- The text with every reference replaced by its value. -/
def expand (lookup : String → Option String) (text : String) : String :=
  String.ofList ((pieces text.toList).flatMap (Piece.render lookup))

/-- The text with every reference replaced from the environment. -/
def expandEnvironment (env : Environment) (text : String) : String := expand env.lookup text

end Steward.Config
