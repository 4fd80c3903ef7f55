import Steward.Event.Basic

/-!
# The event bus

Whoever publishes an event puts it on the bus and does not wait. The bus holds a bounded number of
events until they are collected; when it is full it gives up the oldest one and counts it as missed.

This is the `Bus`, with `new` (`ofCapacity`) and `publish`, as the one who subscribed to it
(`subscribe`) sees it.
-/

namespace Steward.Delivery

/-- The events that wait to be collected. -/
structure Bus where
  /-- How many events it holds. -/
  capacity : Nat
  /-- The events, the oldest in front. -/
  held : List Event := []
  /-- How many events were given up since the last collection. -/
  missed : Nat := 0
  deriving DecidableEq, Repr

namespace Bus

/-- An empty bus for at least a number of events. Its capacity is the least such power of two. -/
def ofCapacity (n : Nat) : Bus where
  capacity := if n ≤ 1 then 1 else 1 <<< ((n - 1).log2 + 1)

/-- Puts an event on the bus. -/
def publish (b : Bus) (e : Event) : Bus :=
  if b.held.length < b.capacity then { b with held := b.held ++ [e] }
  else { b with held := b.held.tail ++ [e], missed := b.missed + 1 }

/-- The bus after a collection. -/
def cleared (b : Bus) : Bus := { b with held := [], missed := 0 }

end Bus

end Steward.Delivery
