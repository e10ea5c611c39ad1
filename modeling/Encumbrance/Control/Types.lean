import Encumbrance.Allocation.Slice
import Encumbrance.Ledger.Store

/-!
# Documents and lifecycle events

The engine follows documents through their approval workflow. A **source document** (an
expense claim, a purchase order) carries its dimensions, its workflow state, its amount
lines and possibly an allocation. A **secondary document** (an invoice) consumes a source
document's budget with lines of its own.

Four lifecycle events drive the engine:

* the source document reached the state that locks budget;
* a secondary document was submitted against it;
* the source document was rejected or reopened;
* a secondary document against it was cancelled.

Handling an event gives an outcome: the budget status the document should now show with the
rows written and any overruns, or that the event was a duplicate, or that it was skipped.
-/

namespace Encumbrance

/-- A document whose budget the engine locks. -/
structure SourceDocument where
  docRef : DocumentRef
  company : Option String := none
  fiscalPeriod : Option String := none
  costCenter : String
  project : Option String := none
  branch : Option String := none
  postingDate : Date
  workflowState : String
  lines : List AmountLine
  allocation : Option AllocationDocument := none
  deriving Repr

namespace SourceDocument

/-- Where the document's amounts belong, as of a posting date; the account is left empty,
    each line brings its own. -/
def sourceAt (d : SourceDocument) (postingDate : Date) : DimensionSource :=
  { company := d.company, fiscalPeriod := d.fiscalPeriod, costCenter := d.costCenter,
    account := "", project := d.project, branch := d.branch, postingDate }

/-- Where the document's amounts belong, as of its own posting date. -/
def source (d : SourceDocument) : DimensionSource := d.sourceAt d.postingDate

/-- The plain sum of the lines. -/
def total (d : SourceDocument) : Except ArithError Decimal := Decimal.sum (d.lines.map (·.amount))

end SourceDocument

/-- A document that consumes a source document's budget. -/
structure SecondaryDocument where
  docRef : DocumentRef
  postingDate : Date
  lines : List AmountLine
  deriving Repr

/-- Who acts, and in which roles. -/
structure Principal where
  user : String := ""
  roles : List String := []
  deriving Repr, Inhabited

namespace Principal

/-- Whether the principal holds a role, matched exactly. -/
def hasRole (p : Principal) (role : String) : Bool := p.roles.contains role

end Principal

/-- Who acts, and the fiscal period to fall back on. -/
structure EventContext where
  principal : Principal := {}
  defaultFiscalPeriod : Option String := none
  deriving Repr, Inhabited

/-- The budget status a document shows after an event. -/
inductive LockStatus where
  | locked
  | overrunAllowed
  | consumed
  | released
  deriving DecidableEq, Repr

namespace LockStatus

/-- The status as shown to users. -/
def label : LockStatus → String
  | locked => "Locked"
  | overrunAllowed => "Overrun Allowed"
  | consumed => "Consumed"
  | released => "Released"

end LockStatus

/-- Why an event changed nothing. -/
inductive SkipReason where
  | disabled
  | notTargetState
  | nothingReserved
  | zeroAmount
  deriving DecidableEq, Repr

namespace SkipReason

/-- The snake-case name. -/
def code : SkipReason → String
  | disabled => "disabled"
  | notTargetState => "not_target_state"
  | nothingReserved => "nothing_reserved"
  | zeroAmount => "zero_amount"

/-- The name in upper camel case. -/
def label : SkipReason → String
  | disabled => "Disabled"
  | notTargetState => "NotTargetState"
  | nothingReserved => "NothingReserved"
  | zeroAmount => "ZeroAmount"

end SkipReason

/-- What an applied event did. -/
structure StatusUpdate where
  document : DocumentRef
  status : LockStatus
  entries : List Entry
  overruns : List Shortfall
  deriving Repr

/-- How an event was handled. -/
inductive Outcome where
  | applied (u : StatusUpdate)
  | duplicate
  | skipped (reason : SkipReason)
  deriving Repr

namespace Outcome

/-- The status of an applied event. -/
def status? : Outcome → Option LockStatus
  | applied u => some u.status
  | _ => none

/-- The rows an applied event wrote. -/
def entries : Outcome → List Entry
  | applied u => u.entries
  | _ => []

end Outcome

/-- A change in a document's workflow that the engine reacts to. -/
inductive LifecycleEvent where
  | reachedTargetState (document : SourceDocument) (context : EventContext)
  | secondarySubmitted (document : SourceDocument) (secondary : SecondaryDocument) (context : EventContext)
  | rejectedOrReopened (document : SourceDocument) (context : EventContext)
  | secondaryCancelled (document : SourceDocument) (secondary : SecondaryDocument) (context : EventContext)
  deriving Repr

namespace LifecycleEvent

/-- The source document the event is about. -/
def document : LifecycleEvent → SourceDocument
  | reachedTargetState d _ | secondarySubmitted d _ _ | rejectedOrReopened d _
  | secondaryCancelled d _ _ => d

/-- The secondary document, for the two events that have one. -/
def secondary? : LifecycleEvent → Option SecondaryDocument
  | secondarySubmitted _ s _ | secondaryCancelled _ s _ => some s
  | _ => none

/-- The snake-case name of the event. -/
def name : LifecycleEvent → String
  | reachedTargetState .. => "reached_target_state"
  | secondarySubmitted .. => "secondary_submitted"
  | rejectedOrReopened .. => "rejected_or_reopened"
  | secondaryCancelled .. => "secondary_cancelled"

end LifecycleEvent

/-- Where a document stands, as its ledger rows add up. -/
inductive DocumentState where
  | unlocked
  | reserved
  | consumed
  deriving DecidableEq, Repr

namespace DocumentState

/-- The name of the state. -/
def label : DocumentState → String
  | unlocked => "Unlocked"
  | reserved => "Reserved"
  | consumed => "Consumed"

end DocumentState

/-- A document's reserved and consumed amounts at one key. -/
structure Position where
  key : DimensionKey
  reserved : Decimal
  consumed : Decimal
  deriving Repr

/-- A document's standing: its state, its positions in key order, and its row count. -/
structure DocumentSummary where
  document : DocumentRef
  state : DocumentState
  positions : List Position
  entryCount : Nat
  deriving Repr

end Encumbrance
