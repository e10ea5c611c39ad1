import Encumbrance.Control.Error

/-!
# The ledger store

The ledger is the list of written rows, oldest first. Rows are only ever appended, a batch
at a time, and a batch is checked as a whole before anything of it is written:

1. it must not be empty;
2. each draft in turn must be sound (`EntryDraft.validate`);
3. its reclass rows must balance: the amounts going out add up to the amounts coming in.

The first failing check names the error and nothing is written. A written batch gets the
next batch number; its rows get the next serial numbers and the ledger's clock reading,
which advances by one per batch.

The totals that availability is built from are sums of signed outflows over the rows of a
scope: `reserved` over reservations and releases, the allocation adjustment (negated) over
supplements and reclasses, and consumption (negated) over consumptions and reversals.
-/

namespace Encumbrance

/-- Which rows a query selects: every criterion given must hold; an empty type list admits
    every type. -/
structure LedgerQuery where
  source : Option DocumentRef := none
  against : Option DocumentRef := none
  key : Option DimensionKey := none
  scope : Option BudgetScope := none
  types : List EntryType := []

namespace LedgerQuery

/-- Whether a row meets the query. -/
def admits (q : LedgerQuery) (e : Entry) : Bool :=
  (q.source.all (· = e.source)) &&
  (q.against.all (some · = e.against)) &&
  (q.key.all (· = e.key)) &&
  (q.scope.all (·.contains e.key)) &&
  (q.types.isEmpty || q.types.contains e.entryType)

end LedgerQuery

/-- The rows that hold budget back from a scope until consumed or released. -/
def reservedTypes : List EntryType := [.reservation, .release]

/-- The rows that change a scope's allocation. -/
def allocationTypes : List EntryType := [.supplement, .reclass]

/-- The rows that record spending. -/
def consumedTypes : List EntryType := [.consumption, .reversal]

/-- Checks a batch as described at the top of this module. The reclass sums can overflow. -/
def validateBatch (drafts : List EntryDraft) : Except BudgetError Unit := do
  if drafts.isEmpty then throw (.ledger .emptyBatch)
  for d in drafts do
    match d.validate with
    | .ok () => pure ()
    | .error e => throw (.ledger e)
  let step (acc : Decimal × Decimal) (d : EntryDraft) : Except ArithError (Decimal × Decimal) :=
    match d.direction with
    | .out => do pure (← Decimal.add acc.1 d.amount, acc.2)
    | .inbound => do pure (acc.1, ← Decimal.add acc.2 d.amount)
  let (out, inbound) ← liftArith
    ((drafts.filter (·.entryType = .reclass)).foldlM step (Decimal.zero, Decimal.zero))
  if !out.sameValue inbound then throw (.ledger (.unmatchedReclass out inbound))

/-- The append-only ledger: its rows, oldest first, and how many batches were written. -/
structure Ledger where
  entries : List Entry := []
  batches : Nat := 0
  deriving Repr

namespace Ledger

/-- The number of rows. -/
def size (l : Ledger) : Nat := l.entries.length

/-- The rows a query selects, oldest first. -/
def select (l : Ledger) (q : LedgerQuery) : List Entry := l.entries.filter q.admits

/-- Checks a batch and writes it, returning the rows written. -/
def append (l : Ledger) (drafts : List EntryDraft) : Except BudgetError (List Entry × Ledger) := do
  validateBatch drafts
  let written := drafts.zipIdx.map fun (d, i) => Entry.ofDraft d (l.size + i) l.batches l.batches
  pure (written, { entries := l.entries ++ written, batches := l.batches + 1 })

/-- The sum of `weight` over the rows of a scope of the given types. -/
def total (l : Ledger) (s : BudgetScope) (types : List EntryType) (weight : Entry → Decimal) :
    Except ArithError Decimal :=
  Decimal.sum ((l.select { scope := some s, types }).map weight)

/-- Outflow of the scope's reservations and releases. -/
def reservedTotal (l : Ledger) (s : BudgetScope) : Except ArithError Decimal :=
  l.total s reservedTypes Entry.outflow

/-- Inflow of the scope's supplements and reclasses. -/
def allocationAdjustment (l : Ledger) (s : BudgetScope) : Except ArithError Decimal :=
  l.total s allocationTypes fun e => -e.outflow

/-- Inflow of the scope's consumptions and reversals, which is what it has spent. -/
def consumedTotal (l : Ledger) (s : BudgetScope) : Except ArithError Decimal :=
  l.total s consumedTypes fun e => -e.outflow

/-- What can be told about the rows' identities without showing them. -/
structure Audit where
  idsDistinct : Bool
  idVersions : List Nat
  writtenInOrder : Bool
  batchesShareTime : Bool

/-- Audits the identifiers and clock readings of the rows. -/
def audit (l : Ledger) : Audit :=
  let es := l.entries
  { idsDistinct := Uuid.distinct (es.map Entry.id)
    idVersions := Uuid.versions (es.map Entry.id)
    writtenInOrder := (es.zip es.tail).all fun (a, b) => a.writtenAt ≤ b.writtenAt
    batchesShareTime := es.all fun a => es.all fun b => a.batch != b.batch || a.writtenAt == b.writtenAt }

end Ledger

end Encumbrance
