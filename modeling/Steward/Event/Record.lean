import Steward.Event.Basic
import Steward.Log.Record

/-!
# Events in the log

Each event is written to the log as one record. A resource or backend that is not given is shown as
a dash, a reason as an empty text, and a number is left out.

`record` is what `on_event` of the `LogWriter` writes.
-/

namespace Steward.Event

open Log (FieldValue Level)

/-- What stands for a name that is not given. -/
def absentName : String := "-"

/-- A number that may be absent, as a field. -/
def countField (name : String) (n : Option Nat) : List (String × FieldValue) :=
  (n.map fun n => (name, FieldValue.number n)).toList

/-- The record of an event. -/
def record (e : Event) : Log.Record :=
  let resource := ("resource", FieldValue.text (e.resource.getD absentName))
  let backend := ("backend", FieldValue.text (e.backend.getD absentName))
  let attempt := countField "attempt" e.attempt
  let error := ("error", FieldValue.text (e.reason.getD ""))
  let make (level : Level) (message : String) (fields : List (String × FieldValue)) : Log.Record :=
    ⟨level, Log.programTarget, message, fields⟩
  match e.kind with
  | .shutdownRequested => make .info "shutdown requested" []
  | .allStopped => make .info "all resources stopped" []
  | .resourceStarting => make .debug "connecting backends" [resource]
  | .backendConnected => make .info "backend connected" (resource :: backend :: attempt)
  | .backendSkipped => make .trace "backend not configured" [resource, backend]
  | .backendConnectFailed =>
    make .error "backend connect failed" (resource :: backend :: attempt ++ [error])
  | .retryScheduled =>
    make .info "retry scheduled"
      (resource :: backend :: attempt ++ countField "delay_ms" e.delay)
  | .resourceBuildFailed => make .error "resource build failed" [resource, error]
  | .resourceWatching => make .info "watching resource" [resource]
  | .resourceStopped => make .info "resource stopped" [resource]
  | .backendsReleased =>
    make .debug "backends released" (resource :: countField "released" e.released)

end Steward.Event
