import Encumbrance.Decimal.Arith
import Encumbrance.Calendar.Date
import Encumbrance.Dimension.Key
import Encumbrance.Identity.Uuid

/-!
# Ledger entries

The budget ledger is append-only. Each row moves an amount into or out of the budget of one
dimension key, and records which document caused it (`source`) and, for consumption and its
reversal, which secondary document it was booked against (`against`).

Every entry type but `RECLASS` has a fixed direction: reservations and reversals take budget
out, releases, consumptions and supplements put it back in. A reclass moves budget between
two keys, so it comes as a pair, one row out and one row in, of equal amounts.

A row's `outflow` is its amount signed by its direction: positive when budget goes out.
-/

namespace Encumbrance

/-- A reference to a business document: its kind and its name. -/
structure DocumentRef where
  doctype : String
  name : String
  deriving DecidableEq, Repr, Inhabited

namespace DocumentRef

/-- `doctype name`. -/
def toText (d : DocumentRef) : String := d.doctype ++ " " ++ d.name

end DocumentRef

/-- Whether budget leaves the key (`out`) or returns to it (`inbound`). -/
inductive Direction where
  | out
  | inbound
  deriving DecidableEq, Repr, Inhabited

namespace Direction

/-- `OUT` or `IN`. -/
def code : Direction → String
  | out => "OUT"
  | inbound => "IN"

/-- `Out` or `In`, the way messages name a direction. -/
def label : Direction → String
  | out => "Out"
  | inbound => "In"

end Direction

/-- What a ledger row records. -/
inductive EntryType where
  | reservation
  | consumption
  | release
  | reversal
  | reclass
  | supplement
  deriving DecidableEq, Repr, Inhabited

namespace EntryType

/-- The direction a row of this type must have; a reclass may go either way. -/
def fixedDirection : EntryType → Option Direction
  | reservation | reversal => some .out
  | release | consumption | supplement => some .inbound
  | reclass => none

/-- The upper-case name of the type. -/
def code : EntryType → String
  | reservation => "RESERVATION"
  | consumption => "CONSUMPTION"
  | release => "RELEASE"
  | reversal => "REVERSAL"
  | reclass => "RECLASS"
  | supplement => "SUPPLEMENT"

/-- Every entry type. -/
def all : List EntryType := [reservation, consumption, release, reversal, reclass, supplement]

/-- The type named by an upper-case name. -/
def ofCode? (s : String) : Option EntryType := all.find? (·.code == s)

end EntryType

/-- Why a batch of drafts cannot be written. -/
inductive LedgerError where
  | emptyBatch
  | negativeAmount (amount : Decimal)
  | invalidDirection (entryType : EntryType) (direction : Direction)
  | unmatchedReclass (out inbound : Decimal)
  deriving Repr

namespace LedgerError

/-- The stable code of the error. -/
def code : LedgerError → String
  | emptyBatch => "EMPTY_BATCH"
  | negativeAmount _ => "NEGATIVE_AMOUNT"
  | invalidDirection _ _ => "INVALID_DIRECTION"
  | unmatchedReclass _ _ => "UNMATCHED_RECLASS"

/-- The text of the error. -/
def message : LedgerError → String
  | emptyBatch => "Ledger batch must contain at least one entry"
  | negativeAmount x => "Entry amount cannot be negative: " ++ x.toText
  | invalidDirection t d => t.code ++ " entries cannot be posted with direction " ++ d.label
  | unmatchedReclass o i => "Reclass entries are unmatched. Out: " ++ o.toText ++ ", In: " ++ i.toText

end LedgerError

/-- A row that is about to be written. -/
structure EntryDraft where
  key : DimensionKey
  entryType : EntryType
  direction : Direction
  amount : Decimal
  source : DocumentRef
  against : Option DocumentRef
  postingDate : Date
  deriving Repr

namespace EntryDraft

/-- A draft with the type's own direction (out for a reclass) and no counter-document. -/
def make (key : DimensionKey) (t : EntryType) (amount : Decimal) (source : DocumentRef)
    (postingDate : Date) : EntryDraft :=
  { key, entryType := t, direction := (t.fixedDirection).getD .out, amount, source,
    against := none, postingDate }

/-- One half of a reclass pair. -/
def reclassing (key : DimensionKey) (direction : Direction) (amount : Decimal)
    (source : DocumentRef) (postingDate : Date) : EntryDraft :=
  { key, entryType := .reclass, direction, amount, source, against := none, postingDate }

/-- The same draft booked against a counter-document. -/
def bookedAgainst (d : EntryDraft) (doc : DocumentRef) : EntryDraft := { d with against := some doc }

/-- The signed amount: positive when budget goes out. -/
def outflow (d : EntryDraft) : Decimal :=
  match d.direction with
  | .out => d.amount
  | .inbound => -d.amount

/-- A draft is sound when its amount is not below zero and its direction is the one its type
    demands. -/
def validate (d : EntryDraft) : Except LedgerError Unit :=
  if d.amount.isNegative then .error (.negativeAmount d.amount)
  else
    match d.entryType.fixedDirection with
    | some expected => if expected = d.direction then .ok () else .error (.invalidDirection d.entryType d.direction)
    | none => .ok ()

end EntryDraft

/-- A written row. Besides the draft's fields it carries its serial number in the ledger, the
    number of the batch it was written in, and the ledger's clock at that moment. -/
structure Entry where
  serial : Nat
  batch : Nat
  writtenAt : Nat
  key : DimensionKey
  entryType : EntryType
  direction : Direction
  amount : Decimal
  source : DocumentRef
  against : Option DocumentRef
  postingDate : Date
  deriving Repr

namespace Entry

/-- The row a draft becomes. -/
def ofDraft (d : EntryDraft) (serial batch writtenAt : Nat) : Entry :=
  { serial, batch, writtenAt, key := d.key, entryType := d.entryType, direction := d.direction,
    amount := d.amount, source := d.source, against := d.against, postingDate := d.postingDate }

/-- The signed amount: positive when budget goes out. -/
def outflow (e : Entry) : Decimal :=
  match e.direction with
  | .out => e.amount
  | .inbound => -e.amount

/-- The row's identifier, minted from its serial number. -/
def id (e : Entry) : Uuid := Uuid.mint e.serial

/-- The identifier of the row's batch, minted from the batch number. -/
def batchId (e : Entry) : Uuid := Uuid.mint e.batch

end Entry

end Encumbrance
