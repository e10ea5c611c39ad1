import Encumbrance.Control.Types

/-!
# A document's state, derived from its rows

No lifecycle state is stored. A document's history is its ledger rows, and per dimension key
they add up to a position: `reserved` is the outflow of its reservations and releases,
`consumed` the inflow of its consumptions and reversals. Positions are kept in key order.

The state is read off the positions in key order. The first position that still holds a
reservation above zero makes the document **reserved** at once; the positions read before it
only set a flag when they had consumption above zero. With no reservation held, the document
is **consumed** when the flag is set and **unlocked** when it is not.
-/

namespace Encumbrance

/-- Adds one row to the positions. -/
def addToPositions (ps : List Position) (e : Entry) : Except ArithError (List Position) := do
  let p : Position := (ps.find? (·.key = e.key)).getD ⟨e.key, Decimal.zero, Decimal.zero⟩
  let p' ← match e.entryType with
    | .reservation | .release => do pure { p with reserved := ← Decimal.add p.reserved e.outflow }
    | .consumption | .reversal => do pure { p with consumed := ← Decimal.sub p.consumed e.outflow }
    | .reclass | .supplement => pure p
  if ps.any (·.key = e.key) then pure (ps.map fun q => if q.key = e.key then p' else q)
  else pure (ps ++ [p'])

/-- The positions of some rows, in key order. -/
def positions (entries : List Entry) : Except ArithError (List Position) := do
  let ps ← entries.foldlM addToPositions []
  pure (ps.mergeSort fun a b => a.key.cmp b.key != .gt)

/-- Reads positions in their order, `consumed` telling whether a position read before had
    consumption above zero: a position that still holds a reservation decides at once, and
    once all are read the flag decides. -/
def deriveStateFrom (consumed : Bool) : List Position → DocumentState
  | [] => if consumed then .consumed else .unlocked
  | p :: ps =>
    if Decimal.zero < p.reserved then .reserved
    else deriveStateFrom (consumed || decide (Decimal.zero < p.consumed)) ps

/-- The state the positions add up to, read with no consumption seen yet. -/
def deriveState (ps : List Position) : DocumentState := deriveStateFrom false ps

/-- The keys still holding a reservation, with the amount held. -/
def outstandingReserved (entries : List Entry) : Except ArithError (List (DimensionKey × Decimal)) := do
  pure (((← positions entries).filter fun p => Decimal.zero < p.reserved).map fun p => (p.key, p.reserved))

/-- The keys with consumption booked against a secondary document, with the amount. -/
def outstandingConsumedAgainst (entries : List Entry) (secondary : DocumentRef) :
    Except ArithError (List (DimensionKey × Decimal)) := do
  let ps ← positions (entries.filter (·.against = some secondary))
  pure ((ps.filter fun p => Decimal.zero < p.consumed).map fun p => (p.key, p.consumed))

/-- The reservation rows of the latest batch that reserved anything, with their amounts. -/
def lastReservation (entries : List Entry) : List (DimensionKey × Decimal) :=
  match (entries.reverse.find? (·.entryType = .reservation)).map (·.batch) with
  | none => []
  | some b =>
    (entries.filter fun e => e.batch = b && e.entryType = .reservation).map fun e => (e.key, e.amount)

end Encumbrance
