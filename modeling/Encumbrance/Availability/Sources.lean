import Encumbrance.Ledger.Store

/-!
# What availability is computed from

* The **envelope book** holds the budget allocated to each dimension key; setting a key again
  replaces its amount.
* **Posted actuals** hold spending recorded outside the engine; posting to a key again adds
  to what it has.

A scope's figure from the book or the postings is the sum over the keys the scope contains,
in the order the keys were first set.
-/

namespace Encumbrance

/-- Sums the amounts of the keys a scope contains. -/
def scopeSum (entries : List (DimensionKey × Decimal)) (s : BudgetScope) : Except ArithError Decimal :=
  Decimal.sum ((entries.filter fun e => s.contains e.1).map (·.2))

/-- Allocated budget per dimension key. -/
structure EnvelopeBook where
  entries : List (DimensionKey × Decimal) := []
  deriving Repr

namespace EnvelopeBook

/-- Sets a key's allocation, replacing an earlier one. -/
def set (b : EnvelopeBook) (k : DimensionKey) (amount : Decimal) : EnvelopeBook :=
  if b.entries.any (·.1 = k) then
    { entries := b.entries.map fun e => if e.1 = k then (k, amount) else e }
  else { entries := b.entries ++ [(k, amount)] }

/-- A book with the envelopes set in order. -/
def ofList (xs : List (DimensionKey × Decimal)) : EnvelopeBook :=
  xs.foldl (fun b (k, a) => b.set k a) {}

/-- The number of keys with an envelope. -/
def size (b : EnvelopeBook) : Nat := b.entries.length

/-- The budget allocated to a scope. -/
def allocated (b : EnvelopeBook) (s : BudgetScope) : Except ArithError Decimal := scopeSum b.entries s

end EnvelopeBook

/-- Spending posted per dimension key. -/
structure PostedActuals where
  entries : List (DimensionKey × Decimal) := []
  deriving Repr

namespace PostedActuals

/-- Adds spending to a key. -/
def post (p : PostedActuals) (k : DimensionKey) (amount : Decimal) : Except ArithError PostedActuals :=
  match p.entries.find? (·.1 = k) with
  | some (_, before) => do
    let after ← Decimal.add before amount
    pure { entries := p.entries.map fun e => if e.1 = k then (k, after) else e }
  | none => do
    let after ← Decimal.add Decimal.zero amount
    pure { entries := p.entries ++ [(k, after)] }

/-- The spending posted to a scope. -/
def actual (p : PostedActuals) (s : BudgetScope) : Except ArithError Decimal := scopeSum p.entries s

end PostedActuals

end Encumbrance
