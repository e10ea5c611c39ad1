import Encumbrance.Dimension.Key

/-!
# Scope locks

Writers take the budget scopes they touch before they read availability and append, so two
writers on one scope never interleave. The table keeps a slot per scope that is in use.

Taking a set of scopes goes through them in scope order, after removing repeats. If one of
them is held already, the attempt gives up at the first such scope (after waiting for the
lock timeout, which a sequential model does not need to spend) and takes nothing. Either
way, once an attempt is over, the slots of its scopes that nobody holds are cleared.

An operation that aborts half-way (an arithmetic overflow) skips that clean-up: the slots of
its scopes stay in the table, unheld, until a later attempt on the same scope clears them.
So the table's size counts held scopes plus such leftovers.
-/

namespace Encumbrance

/-- The slots of a lock table: the scopes with a slot, and those of them that are held. -/
structure LockTable where
  slots : List BudgetScope := []
  held : List BudgetScope := []
  deriving Repr

namespace LockTable

/-- Scopes in scope order without repeats. -/
def ordered (scopes : List BudgetScope) : List BudgetScope :=
  (scopes.mergeSort fun a b => a.cmp b != .gt).eraseDups

/-- The number of slots. -/
def size (t : LockTable) : Nat := t.slots.length

/-- Adds slots for scopes that have none. -/
def withSlots (t : LockTable) (scopes : List BudgetScope) : LockTable :=
  { t with slots := t.slots ++ scopes.filter (!t.slots.contains ·) }

/-- Clears the slots of the given scopes that nobody holds. -/
def clearIdle (t : LockTable) (scopes : List BudgetScope) : LockTable :=
  { t with slots := t.slots.filter fun s => !scopes.contains s || t.held.contains s }

/-- Takes the scopes, or names the first of them, in scope order, that is held already. -/
def acquire (t : LockTable) (scopes : List BudgetScope) : Except (BudgetScope × LockTable) LockTable :=
  let keys := ordered scopes
  let t := t.withSlots keys
  match keys.find? t.held.contains with
  | some blocked => .error (blocked, t.clearIdle keys)
  | none => .ok { t with held := t.held ++ keys }

/-- Gives the scopes back. After an aborted operation their slots stay. -/
def release (t : LockTable) (scopes : List BudgetScope) (aborted : Bool) : LockTable :=
  let keys := ordered scopes
  let t := { t with held := t.held.filter (!keys.contains ·) }
  if aborted then t else t.clearIdle keys

end LockTable

end Encumbrance
