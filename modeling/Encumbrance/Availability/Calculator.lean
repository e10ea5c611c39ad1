import Encumbrance.Availability.Cache
import Encumbrance.Ledger.Lock

/-!
# Availability

What a budget scope still has available is

    available = allocated - actual - reserved

where `allocated` is the envelope plus the ledger's allocation adjustment, `actual` is the
spend read from the actuals source (through the cache), and `reserved` is the ledger's
outstanding reservations. A request fits when it is at most what is available; otherwise it
falls short by the difference.

The books are everything availability is computed from, plus the scope locks. Reading them
can only change the cache, but an overflow half-way through a computation keeps whatever the
cache learned before it: the computations run in a state monad with errors, where an error
leaves the state as it stood.

The order of the reads matters for which overflow is reported: `available` subtracts the
actual spend before it reads the reservations, `check` reads all three first.
-/

namespace Encumbrance

/-- Where actual spend comes from: postings made outside the engine, or the ledger's own
    consumption rows. -/
inductive ActualsFrom where
  | posted
  | ledger
  deriving DecidableEq, Repr

/-- Everything availability is computed from, and the scope locks. -/
structure Books where
  ledger : Ledger := {}
  envelopes : EnvelopeBook := {}
  posted : PostedActuals := {}
  actualsFrom : ActualsFrom := .ledger
  cache : ActualsCache := {}
  locks : LockTable := {}
  deriving Repr

/-- Computations over the books that may fail and keep their changes so far. -/
abbrev BooksM := ExceptT BudgetError (StateM Books)

/-- The result of an arithmetic step; an overflow aborts. -/
def arith {m : Type → Type} [Monad m] [MonadExceptOf BudgetError m] {α : Type}
    (x : Except ArithError α) : m α :=
  match x with
  | .ok a => pure a
  | .error e => throw (BudgetError.overflow e)

/-- A scope's standing against a request. -/
structure Availability where
  scope : BudgetScope
  requested : Decimal
  allocated : Decimal
  actual : Decimal
  reserved : Decimal
  available : Decimal
  ok : Bool
  shortfall : Decimal
  deriving Repr

namespace Books

/-- Actual spend read live from the source. -/
def liveActual (b : Books) (s : BudgetScope) : Except ArithError Decimal :=
  match b.actualsFrom with
  | .posted => b.posted.actual s
  | .ledger => b.ledger.consumedTotal s

/-- Actual spend read through the cache, when it remembers anything. A miss is noted before
    the live figure is read, so an overflow in that read keeps the note. -/
def actual (s : BudgetScope) : BooksM Decimal := do
  let b ← get
  if !b.cache.remembers then arith (b.liveActual s)
  else
    match b.cache.lookup s with
    | some x =>
      set { b with cache := b.cache.hit x }
      pure x.value
    | none =>
      let c := b.cache.miss s
      set { b with cache := c }
      let v ← arith (b.liveActual s)
      set { b with cache := c.fill s v }
      pure v

/-- Envelope plus allocation adjustment. -/
def allocated (s : BudgetScope) : BooksM Decimal := do
  let b ← get
  let envelope ← arith (b.envelopes.allocated s)
  let adjustment ← arith (b.ledger.allocationAdjustment s)
  arith (Decimal.add envelope adjustment)

/-- Outstanding reservations. -/
def reserved (s : BudgetScope) : BooksM Decimal := do
  arith ((← get).ledger.reservedTotal s)

/-- What the scope has available. -/
def available (s : BudgetScope) : BooksM Decimal := do
  let a ← allocated s
  let u ← actual s
  let rest ← arith (Decimal.sub a u)
  let r ← reserved s
  arith (Decimal.sub rest r)

/-- The scope's standing against a request. -/
def check (s : BudgetScope) (requested : Decimal) : BooksM Availability := do
  let a ← allocated s
  let u ← actual s
  let r ← reserved s
  let rest ← arith (Decimal.sub a u)
  let available ← arith (Decimal.sub rest r)
  let ok := decide (requested ≤ available)
  let shortfall ← if ok then pure Decimal.zero else arith (Decimal.sub requested available)
  pure { scope := s, requested, allocated := a, actual := u, reserved := r, available, ok, shortfall }

/-- Forgets the cached spend of a scope. -/
def invalidate (s : BudgetScope) : BooksM Unit :=
  modify fun b => if b.cache.remembers then { b with cache := b.cache.invalidate s } else b

/-- Forgets all cached spend. -/
def invalidateAll : BooksM Unit :=
  modify fun b => if b.cache.remembers then { b with cache := b.cache.invalidateAll } else b

/-- How many scopes the cache holds after its upkeep; none when it remembers nothing. -/
def cachedScopes : BooksM Nat := do
  let b ← get
  if !b.cache.remembers then pure 0
  else
    let (n, c) := b.cache.entryCount
    set { b with cache := c }
    pure n

/-- Runs `work` holding the scopes' locks. A held scope makes it fail with a write conflict
    before anything runs; an overflow inside leaves the scopes' slots behind. -/
def withScopes {α : Type} (scopes : List BudgetScope) (work : BooksM α) : BooksM α := do
  let b ← get
  match b.locks.acquire scopes with
  | .error (blocked, locks) =>
    set { b with locks }
    throw (.writeConflict blocked.toText)
  | .ok locks =>
    set { b with locks }
    let r ← tryCatch (do pure (Except.ok (← work))) fun e => pure (Except.error e)
    let aborted := match r with
      | .error (.overflow _) => true
      | _ => false
    modify fun b => { b with locks := b.locks.release scopes aborted }
    match r with
    | .ok a => pure a
    | .error e => throw e

end Books

end Encumbrance
