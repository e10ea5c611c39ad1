import Mathlib
import Encumbrance.Dimension.Key
import Encumbrance.Calendar.Fiscal

/-! # Where a row is counted

    Two lookups decide what a row counts against. Its posting date picks the fiscal period of
    its key, from the calendar; its key, at the control setting, picks the budget scope whose
    figures it moves.

    * **Scopes partition the keys.** A scope leaves the account open when budgets are held per
      cost center, but matches project and branch exactly, an absent one only an absent one.
      Whatever the setting and whichever optional dimensions are present, the scope of a key
      holds another key exactly when the two keys have the same scope; so every key lies in
      one scope of a setting and in no other (`BudgetScope.scopes_partition_keys`). Locking,
      demand and the cache's invalidation all go by that one scope.
    * **The period of a date.** The calendar is searched once, in its order, stopping at the
      first period of the company's own and keeping the first shared one on the way; by
      induction over the periods neither the stop nor the keeping loses the answer
      (`FiscalCalendar.ownOrShared_eq`). So the first period of the company's own that
      contains the date wins, wherever a shared one stands before it, and only when there is
      none does the first shared period count (`FiscalCalendar.periodFor_first_own_then_shared`).
-/

namespace Encumbrance

/-! ## Section 1: Budget scopes -/

namespace BudgetScope

/-- A key lies in the scope of another key exactly when both keys have the same scope. -/
theorem contains_ofKey_iff {k k' : DimensionKey} {byAccount : Bool} :
    (ofKey k' byAccount).contains k = true ↔ ofKey k byAccount = ofKey k' byAccount := by
  cases byAccount <;> simp [ofKey, contains] <;> grind

/-- The scopes of a control setting partition the keys: the scope of `k` holds `k'` exactly
    when `k'` has the same scope, and of all the scopes of keys, the only one holding a key is
    its own. -/
theorem scopes_partition_keys (byAccount : Bool) :
    (∀ k k' : DimensionKey,
      (ofKey k byAccount).contains k' = true ↔ ofKey k' byAccount = ofKey k byAccount) ∧
    ∀ k : DimensionKey, ∃! s : BudgetScope, (∃ j, s = ofKey j byAccount) ∧ s.contains k = true := by
  refine ⟨fun k k' => contains_ofKey_iff, fun k => ?_⟩
  refine ⟨ofKey k byAccount, ⟨⟨k, rfl⟩, contains_ofKey k byAccount⟩, ?_⟩
  -- a scope of another key that holds `k` is the scope of `k`
  rintro s ⟨⟨j, rfl⟩, hj⟩
  exact (contains_ofKey_iff.1 hj).symm

end BudgetScope

/-! ## Section 2: Fiscal periods -/

namespace FiscalPeriod

variable (p : FiscalPeriod) (company : String) (d : Date)

/-- Of the periods that apply to a company and contain a date, those that belong to some
    company belong to that one. -/
theorem applies_own_iff :
    (p.appliesTo company && p.containsDate d) = true ∧ p.company.isSome = true ↔
      p.company = some company ∧ p.start ≤ d ∧ d ≤ p.finish := by
  cases h : p.company <;> simp [appliesTo, containsDate, h]

/-- A period that is not the company's own for the date applies exactly when it is shared. -/
theorem applies_eq_shared (hown : ¬(p.company = some company ∧ p.start ≤ d ∧ d ≤ p.finish)) :
    (p.appliesTo company && p.containsDate d) =
      decide (p.company = none ∧ p.start ≤ d ∧ d ≤ p.finish) := by
  rw [Bool.eq_iff_iff, decide_eq_true_iff]
  cases h : p.company <;> simp_all [appliesTo, containsDate]

end FiscalPeriod

/-- Stopping at the first period of the company's own loses nothing, and keeping only the
    first shared period keeps the right one: the reading gives that own period's name, else the
    shared period kept before it started, else the first period's name. -/
theorem FiscalCalendar.ownOrShared_eq (shared : Option String) (hits : List FiscalPeriod) :
    FiscalCalendar.ownOrShared shared hits =
      ((hits.find? (·.company.isSome)).map (·.name)).or (shared.or (hits.head?.map (·.name))) := by
  induction hits generalizing shared with
  | nil => cases shared <;> rfl
  | cons p ps ih =>
    by_cases hown : p.company.isSome = true
    · -- the early return: a period of the company's own ends the reading
      simp [FiscalCalendar.ownOrShared, hown]
    · -- a shared period is kept only when none is kept yet
      rw [FiscalCalendar.ownOrShared, if_neg hown, ih]
      cases shared <;> simp [hown]

/-- The period of a company on a date is the first period of the company's own whose range,
    both ends included, holds the date; failing that, the first shared period that holds it;
    failing both, none. -/
theorem FiscalCalendar.periodFor_first_own_then_shared (cal : FiscalCalendar) (company : String)
    (d : Date) :
    cal.periodFor company d =
      ((cal.find? fun p => p.company = some company ∧ p.start ≤ d ∧ d ≤ p.finish).map (·.name)).or
        ((cal.find? fun p => p.company = none ∧ p.start ≤ d ∧ d ≤ p.finish).map (·.name)) := by
  rw [FiscalCalendar.periodFor, FiscalCalendar.ownOrShared_eq, Option.none_or]
  simp only [List.find?_filter, FiscalPeriod.applies_own_iff, List.head?_filter]
  cases hown : cal.find? fun p => decide (p.company = some company ∧ p.start ≤ d ∧ d ≤ p.finish) with
  | some p => rfl
  | none =>
    -- no period of the company's own holds the date, so the first that applies is shared
    have hshared : ∀ p ∈ cal, (p.appliesTo company && p.containsDate d) =
        decide (p.company = none ∧ p.start ≤ d ∧ d ≤ p.finish) := fun p hp =>
      FiscalPeriod.applies_eq_shared p company d (by simpa using List.find?_eq_none.1 hown p hp)
    rw [List.find?_congr hshared, Option.map_none, Option.none_or]

-- the company's own period wins over a shared one that comes first and also holds the date
example :
    FiscalCalendar.periodFor
      [⟨"FY2026", none, ⟨2026, 1, 1⟩, ⟨2026, 12, 31⟩⟩,
        ⟨"ACME-FY2026", some "ACME", ⟨2025, 10, 1⟩, ⟨2026, 9, 30⟩⟩] "ACME" ⟨2026, 3, 15⟩ =
      some "ACME-FY2026" := by
  decide

end Encumbrance
