import Steward.Delivery.Dispatcher
import Steward.Log.Record

/-!
# Reports about deliveries in the log

What befalls an event in a lane is written to the log as a warning, and so is what befalls the
delivery as a whole. That a worker breaks down is an error.

These are the records that `emit`, `open_lane`, `forward_buffered`, `subscriber_listener`,
`flush_subscribers` and `join_all` write.
-/

namespace Steward.Delivery

/-- The target of reports about lanes. -/
def laneTarget : String := Log.partTarget ["subscribers", "set"]

/-- The target of reports about the delivery as a whole. -/
def supervisorTarget : String := Log.partTarget ["core", "supervisor"]

/-- The record of a report about a lane. -/
def Notice.record (n : Notice) : Log.Record :=
  let fields := [("subscriber", Log.FieldValue.text n.subscriber), ("kind", .text n.kind.name)]
  match n.mishap with
  | .dropped =>
    ⟨.warn, laneTarget, "event dropped", fields ++ [("reason", .text "lane full")]⟩
  | .broken => ⟨.warn, laneTarget, "subscriber panicked", fields⟩

/-- The record of a report about the delivery as a whole. -/
def Report.record : Report → Log.Record
  | .lagged skipped =>
    ⟨.warn, supervisorTarget, "event listener lagged", [("skipped", .number skipped)]⟩
  | .busy patience =>
    ⟨.warn, supervisorTarget, "subscribers still busy when run returned",
      [("timeout_ms", .number patience)]⟩
  | .workerBroken => ⟨.error, supervisorTarget, "resource worker panicked", []⟩

end Steward.Delivery
