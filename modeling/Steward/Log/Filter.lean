import Steward.Log.Record

/-!
# Filters

A filter says which records are written. It is a list of rules, each with the least level for the
targets that begin with a text. The rule with the longest such text decides about a record; a record
that no rule is about is not written.

A filter is written as rules between commas. A rule is a level, or a target with `=` and a level. A
target without a level lets all its records pass.

`init` leaves this to a library (`EnvFilter`).
-/

namespace Steward.Log

/-- A rule of a filter. -/
structure FilterRule where
  /-- The beginning of the targets that it is about. -/
  target : String := ""
  /-- The least level that is written, if any is. -/
  least : Option Level
  deriving DecidableEq, Repr

/-- The rules about what is written. -/
structure Filter where
  /-- The rules, in the order in which they were written. -/
  rules : List FilterRule
  deriving DecidableEq, Repr

/-- The words for levels in a filter; the empty level stands for none. -/
def filterWords : List (String × Option Level) :=
  [("trace", some .trace), ("debug", some .debug), ("info", some .info), ("warn", some .warn),
    ("error", some .error), ("off", none), ("5", some .trace), ("4", some .debug),
    ("3", some .info), ("2", some .warn), ("1", some .error), ("0", none)]

/-- The level that a word of a filter stands for. -/
def filterLevel? (word : String) : Option (Option Level) :=
  filterWords.lookup (String.ofList (word.toList.map Char.toLower))

/-- A character of a target in a filter. -/
def isTargetChar (c : Char) : Bool := c.isAlphanum || c == '_' || c == ':' || c == '-'

/-- Reads a rule. -/
def FilterRule.read? (text : String) : Option FilterRule :=
  match filterLevel? text with
  | some least => some { least }
  | none =>
    let target := text.toList.takeWhile isTargetChar
    if target = [] then none
    else match text.toList.drop target.length with
      | [] => some ⟨String.ofList target, some .trace⟩
      | '=' :: word =>
        if word = [] then some ⟨String.ofList target, some .trace⟩
        else (filterLevel? (String.ofList word)).map fun least => ⟨String.ofList target, least⟩
      | _ => none

namespace Filter

/-- The filter that lets a level and those above it pass. -/
def atLeast (level : Level) : Filter := ⟨[{ least := some level }]⟩

/-- Reads a filter. One without rules lets errors pass. -/
def read? (text : String) : Option Filter :=
  let parts := ((text.toList.splitOn ',').filter (· ≠ [])).map String.ofList
  if parts = [] then some (atLeast .error) else (parts.mapM FilterRule.read?).map Filter.mk

/-- Of two rules, the one with the longer target; of equal ones, the later. -/
def moreSpecific (a : Option FilterRule) (b : FilterRule) : Option FilterRule :=
  match a with
  | some a => if b.target.length < a.target.length then some a else some b
  | none => some b

/-- The rule that decides about a target. -/
def rule? (f : Filter) (target : String) : Option FilterRule :=
  (f.rules.filter fun r => r.target.toList.isPrefixOf target.toList).foldl moreSpecific none

/-- True if a record is written. -/
def allows (f : Filter) (r : Record) : Bool :=
  match (f.rule? r.target).bind FilterRule.least with
  | some least => least.weight ≤ r.level.weight
  | none => false

end Filter

end Steward.Log
