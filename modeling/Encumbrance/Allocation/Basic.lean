import Encumbrance.Decimal.Arith
import Encumbrance.Dimension.Key

/-!
# Allocations

A document's amounts come as lines, one amount per account. An allocation document spreads a
document across cost centers: each of its lines names a cost center, a share of the
allocation's total, and optionally a project and a branch. Only an approved allocation may
be used.

Slicing turns a document into slices, one amount per dimension key.
-/

namespace Encumbrance

/-- One amount booked to one account. -/
structure AmountLine where
  account : String
  amount : Decimal
  deriving Repr

/-- The approval state of an allocation document. -/
inductive AllocationStatus where
  | draft
  | approved
  | cancelled
  deriving DecidableEq, Repr, Inhabited

namespace AllocationStatus

/-- `Draft`, `Approved` or `Cancelled`. -/
def label : AllocationStatus → String
  | draft => "Draft"
  | approved => "Approved"
  | cancelled => "Cancelled"

/-- The status named `draft`, `approved` or `cancelled`. -/
def ofName? : String → Option AllocationStatus
  | "draft" => some draft
  | "approved" => some approved
  | "cancelled" => some cancelled
  | _ => none

end AllocationStatus

/-- One cost center's share of an allocation. -/
structure AllocationLine where
  costCenter : String
  amount : Decimal
  project : Option String := none
  branch : Option String := none
  deriving Repr

/-- A document spreading amounts across cost centers in proportion to its lines. -/
structure AllocationDocument where
  name : String
  status : AllocationStatus := .draft
  total : Decimal
  lines : List AllocationLine
  deriving Repr

namespace AllocationDocument

/-- The sum of the line amounts. -/
def linesTotal (a : AllocationDocument) : Except ArithError Decimal :=
  Decimal.sum (a.lines.map (·.amount))

end AllocationDocument

/-- The part of a document booked to one dimension key. -/
structure Slice where
  key : DimensionKey
  amount : Decimal
  deriving Repr

end Encumbrance
