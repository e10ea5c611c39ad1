import Encumbrance.Ledger.Entry
import Encumbrance.Dimension.Resolve

/-!
# Budget errors

Every operation of the engine either succeeds as a whole or fails with one of these errors,
and then writes nothing. An arithmetic overflow aborts the operation where it happens, so
anything the operation changed before that stays changed.

Only the two contention errors, a budget scope or a document being held by another
operation, are worth retrying.
-/

namespace Encumbrance

/-- How far a budget scope falls short of a request. -/
structure Shortfall where
  scope : BudgetScope
  requested : Decimal
  available : Decimal
  shortfall : Decimal
  deriving Repr

namespace Shortfall

/-- `SCOPE requires R, available A (short by S)`. -/
def toText (s : Shortfall) : String :=
  s.scope.toText ++ " requires " ++ s.requested.toText ++ ", available " ++
    s.available.toText ++ " (short by " ++ s.shortfall.toText ++ ")"

end Shortfall

/-- Why an operation of the engine failed. -/
inductive BudgetError where
  | unresolved (u : Unresolved)
  | notReady (allocation reason : String)
  | insufficient (document : String) (shortfalls : List Shortfall)
  | writeConflict (scope : String)
  | documentBusy (document : String)
  | invalidAmount (reason : String)
  | ledger (e : LedgerError)
  | dispatch (reason : String)
  | overflow (e : ArithError)
  deriving Repr

namespace BudgetError

/-- The stable code of the error. -/
def code : BudgetError → String
  | unresolved _ => "DIMENSION_UNRESOLVED"
  | notReady _ _ => "ALLOCATION_NOT_READY"
  | insufficient _ _ => "INSUFFICIENT_BUDGET"
  | writeConflict _ => "LEDGER_WRITE_CONFLICT"
  | documentBusy _ => "DOCUMENT_BUSY"
  | invalidAmount _ => "INVALID_AMOUNT"
  | ledger e => e.code
  | dispatch _ => "DISPATCH_ERROR"
  | overflow _ => "ARITHMETIC_OVERFLOW"

/-- The text of the error. -/
def message : BudgetError → String
  | unresolved u =>
    "Cannot resolve " ++ u.missing.name ++ " for cost center " ++ u.costCenter ++
      ", account " ++ u.account
  | notReady a r => "Allocation " ++ a ++ " is not ready: " ++ r
  | insufficient d ss => "Insufficient budget for " ++ d ++ ": " ++ "; ".intercalate (ss.map Shortfall.toText)
  | writeConflict s => "Budget scope " ++ s ++ " is locked by another operation, please retry"
  | documentBusy d => "Document " ++ d ++ " is busy, please retry"
  | invalidAmount r => "Invalid amount: " ++ r
  | ledger e => e.message
  | dispatch r => "Dispatcher error: " ++ r
  | overflow e => e.message

/-- Whether trying again later may succeed. -/
def retryable : BudgetError → Bool
  | writeConflict _ | documentBusy _ => true
  | _ => false

end BudgetError

/-- Lifts an arithmetic result into the engine's errors. -/
def liftArith {α : Type} (x : Except ArithError α) : Except BudgetError α :=
  x.mapError .overflow

end Encumbrance
