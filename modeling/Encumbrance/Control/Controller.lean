import Encumbrance.Control.State
import Encumbrance.Availability.Calculator
import Encumbrance.Config.Basic

/-!
# The budget controller

The controller turns lifecycle events into ledger rows. Every event follows one shape: derive
the document's state from its rows, slice the document into keyed amounts, then take the
touched scopes' locks, check availability and append one batch, or fail and write nothing.

* **Reaching the target state** reserves the document's slices, once: a document that is not
  unlocked is a duplicate. The reservation goes through the *checked* append: a scope whose
  demand exceeds what it has available fails the whole event, unless the acting principal
  holds the overrun role, in which case the shortfalls are reported as overruns.
* **Submitting a secondary document** releases every outstanding reservation and books the
  secondary's slices as consumption, both against the secondary, in one batch.
* **Rejecting or reopening** releases every outstanding reservation.
* **Cancelling a secondary document** reverses the consumption booked against it. When no
  other consumption and no reservation remain, the document's last reservation is restored in
  the same batch.

Releases, consumptions, reversals and supplements go through the *unchecked* append, which
never refuses; it reports the scopes it drove below zero as overruns.
-/

namespace Encumbrance

/-- The controller's whole state: its settings, its reference data and the books. -/
structure Engine where
  config : BudgetConfig := {}
  directory : List (String × String) := []
  calendar : FiscalCalendar := []
  books : Books := {}
  deriving Repr

/-- Controller operations: they may fail, and keep their changes so far when they do. -/
abbrev EngineM := ExceptT BudgetError (StateM Engine)

namespace Engine

/-- A controller whose actual spend is the ledger's own consumption, read through a cache that
    keeps figures for `ttlSecs` seconds; a time-to-live of zero reads every figure live. -/
def ledgerBacked (config : BudgetConfig) (ledger : Ledger) (envelopes : EnvelopeBook)
    (directory : List (String × String)) (calendar : FiscalCalendar) (ttlSecs : Nat) : Engine :=
  { config, directory, calendar,
    books := { ledger, envelopes, actualsFrom := .ledger, cache := ActualsCache.withTtl ttlSecs } }

/-- Runs a computation over the books. -/
def onBooks {α : Type} (x : BooksM α) : EngineM α :=
  ExceptT.mk do
    let e ← get
    let (r, b) := (x.run).run e.books
    set { e with books := b }
    pure r

/-- The slicer the settings and reference data make. -/
def slicer (e : Engine) : Slicer :=
  { resolver := { directory := e.directory, calendar := e.calendar,
                  enforce := e.config.enforceScope,
                  globalDefaultPeriod := e.config.defaultFiscalPeriod }
    precision := e.config.precision
    tolerance := e.config.roundingTolerance }

/-- The scope a key is checked in. -/
def scopeOf (e : Engine) (k : DimensionKey) : BudgetScope := BudgetScope.ofKey k e.config.controlByAccount

/-- A document's history: the rows it is the source of. -/
def history (e : Engine) (d : DocumentRef) : List Entry := e.books.ledger.select { source := some d }

/-- Adds one draft's outflow to the demand of its scope; demands stay in scope order. -/
def addDemand (byAccount : Bool) (acc : List (BudgetScope × Decimal)) (d : EntryDraft) :
    Except ArithError (List (BudgetScope × Decimal)) := do
  let s := BudgetScope.ofKey d.key byAccount
  let before := ((acc.find? (·.1 = s)).map (·.2)).getD Decimal.zero
  let after ← Decimal.add before d.outflow
  if acc.any (·.1 = s) then pure (acc.map fun p => if p.1 = s then (s, after) else p)
  else pure ((acc ++ [(s, after)]).mergeSort fun a b => a.1.cmp b.1 != .gt)

/-- The net outflow per scope of a batch, in scope order. -/
def demand (drafts : List EntryDraft) : EngineM (List (BudgetScope × Decimal)) := do
  arith (drafts.foldlM (addDemand (← get).config.controlByAccount) [])

/-- Appends the rows a batch becomes. -/
def write (drafts : List EntryDraft) : BooksM (List Entry) := do
  let b ← get
  match b.ledger.append drafts with
  | .ok (entries, ledger) =>
    set { b with ledger }
    pure entries
  | .error e => throw e

/-- Checks every scope the batch takes budget from and appends it. Shortfalls fail the
    batch unless the principal may overrun; then they are returned as overruns. -/
def appendChecked (document : DocumentRef) (drafts : List EntryDraft) (principal : Principal) :
    EngineM (List Entry × List Shortfall) := do
  let needs ← demand drafts
  let role := (← get).config.overrunRole
  onBooks <| Books.withScopes (needs.map (·.1)) do
    let checks ← (needs.filter fun n => Decimal.zero < n.2).mapM fun n => Books.check n.1 n.2
    let shortfalls := (checks.filter (!·.ok)).map fun r =>
      ({ scope := r.scope, requested := r.requested, available := r.available,
         shortfall := r.shortfall } : Shortfall)
    if !shortfalls.isEmpty && !principal.hasRole role then
      throw (.insufficient document.toText shortfalls)
    let entries ← write drafts
    pure (entries, shortfalls)

/-- The overrun of one scope after an append, if it went below zero and lower than before. -/
def overrunOf (s : BudgetScope) (before : Decimal) : BooksM (Option Shortfall) := do
  let after ← Books.available s
  if after < Decimal.zero && after < before then
    pure (some { scope := s, requested := ← arith (Decimal.sub before after),
                 available := before, shortfall := -after })
  else pure none

/-- Appends a batch without refusing it, and reports the scopes it drove below zero. Rows of
    spending make the cached actuals of their scopes stale. -/
def appendUnchecked (drafts : List EntryDraft) : EngineM (List Entry × List Shortfall) := do
  let scopes := (← demand drafts).map (·.1)
  let touchesActuals := drafts.any fun d => d.entryType = .consumption || d.entryType = .reversal
  onBooks <| Books.withScopes scopes do
    let before ← scopes.mapM Books.available
    let entries ← write drafts
    if touchesActuals then
      for s in scopes do Books.invalidate s
    let overruns ← (scopes.zip before).filterMapM fun (s, b) => overrunOf s b
    pure (entries, overruns)

/-- Rejects amounts that are not above zero. -/
def ensurePositive (amount : Decimal) : EngineM Unit :=
  if amount ≤ Decimal.zero then
    throw (.invalidAmount ("amount must be positive, got " ++ amount.toText))
  else pure ()

/-- The derived state and positions of a document's history. -/
def positionsOf (history : List Entry) : EngineM (List Position) := arith (positions history)

/-- A document reaching the state that locks its budget. -/
def onReachTargetState (document : SourceDocument) (context : EventContext) : EngineM Outcome := do
  let e ← get
  if !e.config.enableBudgetLock then return .skipped .disabled
  if document.workflowState ≠ e.config.lockOnState then return .skipped .notTargetState
  let state := deriveState (← positionsOf (e.history document.docRef))
  if state ≠ .unlocked then return .duplicate
  let slices ← liftExcept (e.slicer.slice .document document.source document.lines
    document.allocation context.defaultFiscalPeriod)
  if slices.isEmpty then return .skipped .zeroAmount
  let drafts := slices.map fun s =>
    EntryDraft.make s.key .reservation s.amount document.docRef document.postingDate
  let (entries, overruns) ← appendChecked document.docRef drafts context.principal
  let status := if overruns.isEmpty then LockStatus.locked else .overrunAllowed
  pure (.applied { document := document.docRef, status, entries, overruns })

/-- A secondary document consuming the source document's budget. -/
def onSecondarySubmitted (document : SourceDocument) (secondary : SecondaryDocument)
    (context : EventContext) : EngineM Outcome := do
  let e ← get
  if !e.config.enableBudgetLock then return .skipped .disabled
  let history := e.history document.docRef
  if !(← arith (outstandingConsumedAgainst history secondary.docRef)).isEmpty then return .duplicate
  let slices ← liftExcept (e.slicer.slice .secondary (document.sourceAt secondary.postingDate)
    secondary.lines document.allocation context.defaultFiscalPeriod)
  if slices.isEmpty then return .skipped .zeroAmount
  let releases := (← arith (outstandingReserved history)).map fun (k, amount) =>
    (EntryDraft.make k .release amount document.docRef secondary.postingDate).bookedAgainst secondary.docRef
  let consumptions := slices.map fun s =>
    (EntryDraft.make s.key .consumption s.amount document.docRef secondary.postingDate).bookedAgainst
      secondary.docRef
  let (entries, overruns) ← appendUnchecked (releases ++ consumptions)
  pure (.applied { document := document.docRef, status := .consumed, entries, overruns })

/-- A source document rejected or reopened: its reservations are released. -/
def onRejectedOrReopened (document : SourceDocument) : EngineM Outcome := do
  let e ← get
  if !e.config.enableBudgetLock then return .skipped .disabled
  let outstanding ← arith (outstandingReserved (e.history document.docRef))
  if outstanding.isEmpty then return .skipped .nothingReserved
  let drafts := outstanding.map fun (k, amount) =>
    EntryDraft.make k .release amount document.docRef document.postingDate
  let (entries, _) ← appendUnchecked drafts
  pure (.applied { document := document.docRef, status := .released, entries, overruns := [] })

/-- A secondary document cancelled: its consumption is reversed, and the last reservation
    restored when nothing else holds the document's budget. -/
def onSecondaryCancelled (document : SourceDocument) (secondary : SecondaryDocument) :
    EngineM Outcome := do
  let e ← get
  if !e.config.enableBudgetLock then return .skipped .disabled
  let history := e.history document.docRef
  let reversed ← arith (outstandingConsumedAgainst history secondary.docRef)
  if reversed.isEmpty then return .duplicate
  let others := history.filter (·.against ≠ some secondary.docRef)
  let otherConsumption := (← positionsOf others).any fun p => Decimal.zero < p.consumed
  -- the outstanding reservations are only read when no other consumption decides first
  let restore ←
    if otherConsumption then pure []
    else do
      if !(← arith (outstandingReserved history)).isEmpty then pure []
      else pure (lastReservation history)
  let reversals := reversed.map fun (k, amount) =>
    (EntryDraft.make k .reversal amount document.docRef secondary.postingDate).bookedAgainst secondary.docRef
  let restored := restore.map fun (k, amount) =>
    EntryDraft.make k .reservation amount document.docRef document.postingDate
  let restoring := !restore.isEmpty
  let (entries, overruns) ← appendUnchecked (reversals ++ restored)
  let status :=
    if restoring then (if overruns.isEmpty then LockStatus.locked else .overrunAllowed)
    else if otherConsumption then .consumed
    else .released
  pure (.applied { document := document.docRef, status, entries, overruns })

/-- Handles one lifecycle event. -/
def handle : LifecycleEvent → EngineM Outcome
  | .reachedTargetState d c => onReachTargetState d c
  | .secondarySubmitted d s c => onSecondarySubmitted d s c
  | .rejectedOrReopened d _ => onRejectedOrReopened d
  | .secondaryCancelled d s _ => onSecondaryCancelled d s

/-- Adds budget to a key. -/
def supplement (k : DimensionKey) (amount : Decimal) (source : DocumentRef) (postingDate : Date) :
    EngineM (List Entry) := do
  ensurePositive amount
  let (entries, _) ← appendUnchecked [EntryDraft.make k .supplement amount source postingDate]
  pure entries

/-- Moves budget from one key to another, checked like a reservation of the source key. -/
def reclass (source target : DimensionKey) (amount : Decimal) (doc : DocumentRef)
    (postingDate : Date) (principal : Principal) : EngineM (List Entry) := do
  ensurePositive amount
  if source = target then
    throw (.invalidAmount ("cannot reclass " ++ source.toText ++ " into itself"))
  let drafts := [EntryDraft.reclassing source .out amount doc postingDate,
                 EntryDraft.reclassing target .inbound amount doc postingDate]
  let (entries, _) ← appendChecked doc drafts principal
  pure entries

/-- A key's standing against a request, read under its scope's lock. -/
def checkAvailability (k : DimensionKey) (amount : Decimal) : EngineM Availability := do
  let s := (← get).scopeOf k
  onBooks (Books.withScopes [s] (Books.check s amount))

/-- A key's standing with nothing requested. -/
def availability (k : DimensionKey) : EngineM Availability := checkAvailability k Decimal.zero

/-- A document's state, positions and row count. -/
def summary (d : DocumentRef) : EngineM DocumentSummary := do
  let history := (← get).history d
  let ps ← positionsOf history
  pure { document := d, state := deriveState ps, positions := ps, entryCount := history.length }

/-- Takes new settings if they are valid; the cached actuals are then dropped. -/
def reloadConfig (c : BudgetConfig) : StateM Engine (Except ConfigError Unit) := do
  match c.validate with
  | .error err => pure (.error err)
  | .ok () =>
    modify fun e => { e with config := c, books := { e.books with cache := e.books.cache.invalidateAll } }
    pure (.ok ())

end Engine

end Encumbrance
