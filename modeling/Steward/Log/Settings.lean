import Steward.Text.Blank

/-!
# Log settings

The level and the format of the log, as the configuration spells them. Blanks around a word and the
case of ASCII letters do not matter; an empty word stands for the default. A word that is not known
is given back as it was written.

These are `LogSettings`, with `level` (`level?`) and `format` (`format?`).
-/

namespace Steward.Log

/-- How much weight a record has, from the least to the greatest. -/
inductive Level where
  | trace
  | debug
  | info
  | warn
  | error
  deriving DecidableEq, Repr, Inhabited

/-- The form in which records are written. -/
inductive Format where
  | text
  | json
  deriving DecidableEq, Repr, Inhabited

/-- Position of a level in the order of weight. -/
def Level.weight : Level → Nat
  | trace => 0
  | debug => 1
  | info => 2
  | warn => 3
  | error => 4

/-- The level as a word of the configuration. -/
def Level.word : Level → String
  | trace => "trace"
  | debug => "debug"
  | info => "info"
  | warn => "warn"
  | error => "error"

/-- The level as it stands in a record. -/
def Level.label : Level → String
  | trace => "TRACE"
  | debug => "DEBUG"
  | info => "INFO"
  | warn => "WARN"
  | error => "ERROR"

/-- The format as a word of the configuration. -/
def Format.word : Format → String
  | text => "text"
  | json => "json"

/-- The level when none is configured. -/
def defaultLevel : Level := .info

/-- The format when none is configured. -/
def defaultFormat : Format := .text

/-- A word without blanks around it, in small letters. -/
def normalWord (word : String) : String :=
  String.ofList ((Text.trimBlanks word.toList).map Char.toLower)

/-- The levels by their words; `warning` is another word for `warn`. -/
def levelWords : List (String × Level) :=
  [("", defaultLevel), ("trace", .trace), ("debug", .debug), ("info", .info), ("warn", .warn),
    ("warning", .warn), ("error", .error)]

/-- The formats by their words. -/
def formatWords : List (String × Format) := [("", defaultFormat), ("text", .text), ("json", .json)]

/-- What the configuration says about the log. -/
structure Settings where
  /-- The word for the level. -/
  level : String := ""
  /-- The word for the format. -/
  format : String := ""
  deriving DecidableEq, Repr, Inhabited

/-- The level that is meant, or the word that is not known. -/
def Settings.level? (s : Settings) : Except String Level :=
  match levelWords.lookup (normalWord s.level) with
  | some level => .ok level
  | none => .error s.level

/-- The format that is meant, or the word that is not known. -/
def Settings.format? (s : Settings) : Except String Format :=
  match formatWords.lookup (normalWord s.format) with
  | some format => .ok format
  | none => .error s.format

end Steward.Log
