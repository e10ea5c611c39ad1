import Encumbrance.Interchange.Events

/-!
# Event scripts

A script is a JSON object with the reference data to replay events against and the events
themselves:

* `cost_centers` maps each cost center to its company (default none);
* `fiscal_periods` lists the fiscal calendar (default empty);
* `envelopes` lists budget envelopes as `dimension_key` and `allocated` (default none);
* `events` lists the lifecycle events, in the order they are sent. It must be present.

The script, like every record in it, may also be an array of its fields in this order, and
a field named twice makes it unreadable.
-/

namespace Encumbrance

/-- A budget envelope: the amount allocated to a key. -/
structure Envelope where
  key : DimensionKey
  allocated : Decimal
  deriving Repr

/-- Reference data and events to replay. -/
structure Script where
  costCenters : List (String × String) := []
  fiscalPeriods : FiscalCalendar := []
  envelopes : List Envelope := []
  events : List LifecycleEvent
  deriving Repr

namespace Decode

/-- A budget envelope. -/
def envelope (v : JsonValue) : Option Envelope := do
  let r ← record ["dimension_key", "allocated"] v
  pure { key := ← r.req "dimension_key" dimensionKey, allocated := ← r.req "allocated" amount }

/-- A script. -/
def script (v : JsonValue) : Option Script := do
  let r ← record ["cost_centers", "fiscal_periods", "envelopes", "events"] v
  pure {
    costCenters := ← r.withDefault "cost_centers" textMap []
    fiscalPeriods := ← r.withDefault "fiscal_periods" (list fiscalPeriod) []
    envelopes := ← r.withDefault "envelopes" (list envelope) []
    events := ← r.req "events" (list lifecycleEvent) }

end Decode

namespace Script

/-- Reads a script from its JSON text. -/
def read (text : String) : Option Script :=
  match Json.readLenient text with
  | .ok v => Decode.script v
  | .error _ => none

end Script

end Encumbrance
