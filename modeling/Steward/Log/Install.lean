import Steward.Log.Filter

/-!
# Installing the log

A process has at most one log. The first settings take effect; later ones change nothing. A filter
from the environment goes before the level of the settings. Words of the settings that are not known
are reported in the new log, and defaults stand in for them.

`State.install` is `init`.
-/

namespace Steward.Log

/-- A log: what is written to it, and in which form. -/
structure Sink where
  /-- What is written. -/
  filter : Filter
  /-- In which form. -/
  format : Format
  deriving DecidableEq, Repr

/-- The log for settings and a filter from the environment. -/
def Settings.sink (s : Settings) (override : Option String) : Sink where
  filter := ((override.bind Filter.read?)).getD (.atLeast (s.level?.toOption.getD defaultLevel))
  format := s.format?.toOption.getD defaultFormat

/-- The reports about words of the settings that are not known. -/
def Settings.reports (s : Settings) : List Record :=
  let target := partTarget ["logging"]
  (match s.level? with
    | .ok _ => []
    | .error raw => [⟨.error, target, "invalid log level",
        [("level", .text raw), ("fallback", .text defaultLevel.word)]⟩]) ++
  (match s.format? with
    | .ok _ => []
    | .error raw => [⟨.warn, target, "unknown log format",
        [("format", .text raw), ("fallback", .text defaultFormat.word)]⟩])

/-- The log of a process, with what was written so far. -/
structure State where
  /-- The log, once it is installed. -/
  sink : Option Sink := none
  /-- The records that were written. -/
  written : List Record := []
  deriving Repr

/-- Writes a record, if the log takes it. -/
def State.write (s : State) (r : Record) : State :=
  if (s.sink.map fun k => k.filter.allows r).getD false then
    { s with written := s.written ++ [r] }
  else s

/-- Installs a log unless there is one; tells whether it did. -/
def State.install (s : State) (settings : Settings) (override : Option String) : Bool × State :=
  match s.sink with
  | some _ => (false, s)
  | none =>
    (true, settings.reports.foldl State.write { s with sink := some (settings.sink override) })

end Steward.Log
