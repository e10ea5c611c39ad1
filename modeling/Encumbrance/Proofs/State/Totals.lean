import Mathlib
import Encumbrance.Proofs.State.Positions

/-! # Scope totals from document sums

    A scope's reserved and consumed totals run over the ledger's rows of the scope's keys and of
    some types. Grouped by document and key, those rows are one document's rows of one key, so
    each group adds up to that document's reserved or consumed sum for the key. When none of
    these sums is negative, neither is the total; and with room for exact sums the total the
    ledger computes is that sum.
-/

namespace Encumbrance

/-- A sum is not negative when none of its sums over one group is. -/
theorem sum_nonneg_of_groups {α G : Type} [DecidableEq G] (group : α → G) (w : α → ℚ)
    (L : List α) (h : ∀ g, 0 ≤ ((L.filter fun x => group x = g).map w).sum) :
    0 ≤ (L.map w).sum := by
  obtain ⟨n, hn⟩ : ∃ n, L.length ≤ n := ⟨_, le_rfl⟩
  -- induction on a bound for the length: splitting off the first element's group shortens it
  induction n generalizing L with
  | zero =>
    rw [List.length_eq_zero_iff.1 (Nat.le_zero.1 hn)]
    simp
  | succ n ih =>
    cases L with
    | nil => simp
    | cons x xs =>
      have hsplit := List.sum_map_filter_add_sum_map_filter_not (fun y => group y = group x) w
        (x :: xs)
      have hrest : 0 ≤ (((x :: xs).filter fun y => ¬group y = group x).map w).sum := by
        refine ih _ (fun g => ?_) ?_
        · rw [List.filter_filter]
          by_cases hg : g = group x
          · -- the first element's group is gone from the rest
            subst hg
            simp
          · -- every other group is as it was
            have hother : ((x :: xs).filter fun y => decide (group y = g) &&
                decide ¬group y = group x) = (x :: xs).filter fun y => group y = g :=
              List.filter_congr fun y _ => by
                by_cases hy : group y = g
                · simp [hy, hg]
                · simp [hy]
            rw [hother]
            exact h g
        · -- the first element is not in the rest
          have hlen := List.length_filter_le (fun y => decide ¬group y = group x) xs
          simp only [List.length_cons] at hn
          simp only [List.filter_cons, not_true_eq_false, decide_false,
            Bool.false_eq_true, if_false]
          omega
      rw [← hsplit]
      exact add_nonneg (h (group x)) hrest

/-- A sum is zero when each of its sums over one group is. -/
theorem sum_eq_zero_of_groups {α G : Type} [DecidableEq G] (group : α → G) (w : α → ℚ)
    (L : List α) (h : ∀ g, ((L.filter fun x => group x = g).map w).sum = 0) :
    (L.map w).sum = 0 := by
  have hneg : ∀ M : List α, (M.map fun x => -w x).sum = -(M.map w).sum := fun M => by
    simpa using List.sum_map_mul_left M w (-1)
  have hle := sum_nonneg_of_groups group w L fun g => (h g).ge
  have hge := sum_nonneg_of_groups group (fun x => -w x) L fun g => by
    rw [hneg, h g, neg_zero]
  rw [hneg] at hge
  linarith

/-! ## Section 1: A document's sums as sums of rows -/

/-- The reserved sum of a key is the outflow of its reservations and releases. -/
theorem reservedAt_eq_sum_filter (xs : List Entry) (k : DimensionKey) :
    reservedAt xs k = ((xs.filter fun x => x.key = k && reservedTypes.contains x.entryType).map
      fun x => x.outflow.val).sum := by
  have hpt : ∀ x : Entry, x.draft.reservedIn k =
      if (x.key = k && reservedTypes.contains x.entryType) = true then x.outflow.val else 0 := by
    intro x
    unfold EntryDraft.reservedIn
    by_cases hk : x.key = k
    · cases ht : x.entryType <;> simp [hk, ht, reservedTypes]
    · simp [hk]
  rw [reservedAt, List.map_congr_left fun x _ => hpt x, List.sum_map_ite]
  simp

/-- The consumed sum of a key is the inflow of its consumptions and reversals. -/
theorem consumedAt_eq_sum_filter (xs : List Entry) (k : DimensionKey) :
    consumedAt xs k = ((xs.filter fun x => x.key = k && consumedTypes.contains x.entryType).map
      fun x => (-x.outflow).val).sum := by
  have hpt : ∀ x : Entry, x.draft.consumedIn k =
      if (x.key = k && consumedTypes.contains x.entryType) = true then (-x.outflow).val
      else 0 := by
    intro x
    unfold EntryDraft.consumedIn
    by_cases hk : x.key = k
    · cases ht : x.entryType <;> simp [hk, ht, consumedTypes]
    · simp [hk]
  rw [consumedAt, List.map_congr_left fun x _ => hpt x, List.sum_map_ite]
  simp

theorem Entry.abs_outflow (x : Entry) : |x.outflow.val| = |x.amount.val| :=
  EntryDraft.abs_outflow x.draft

theorem Entry.outflow_scale (x : Entry) : x.outflow.scale = x.amount.scale := by
  unfold Entry.outflow
  split <;> rfl

/-- Rows whose sums over some types are zero at every key add nothing to any scope's total
    over those types. -/
theorem scope_sum_eq_zero_of_keys {xs : List Entry} {types : List EntryType} (hne : types ≠ [])
    {w : Entry → ℚ}
    (h : ∀ k, ((xs.filter fun x => x.key = k && types.contains x.entryType).map w).sum = 0)
    (s : BudgetScope) :
    ((xs.filter ({ scope := some s, types } : LedgerQuery).admits).map w).sum = 0 := by
  have hne' : types.isEmpty = false := List.isEmpty_eq_false_iff.2 hne
  refine sum_eq_zero_of_groups Entry.key w _ fun k => ?_
  rw [List.filter_filter]
  by_cases hk : s.contains k = true
  · -- a key of the scope: its rows of those types are all the key's rows of those types
    rw [← h k]
    congr 2
    refine List.filter_congr fun x _ => ?_
    by_cases hx : x.key = k
    · simp [LedgerQuery.admits, hx, hk, hne']
    · simp [hx]
  · -- a key outside the scope has no rows in it
    rw [List.filter_eq_nil_iff.2 fun x _ => ?_, List.map_nil, List.sum_nil]
    by_cases hx : x.key = k
    · simp [LedgerQuery.admits, hx, hk]
    · simp [hx]

/-! ## Section 2: Totals -/

/-- A scope's total over some types is exact with room, and not negative when no document's
    rows of one key of those types weigh less than nothing. -/
theorem Ledger.total_nonneg {S : ℕ} {l : Ledger} (hroom : Decimal.Room S (l.entries.map Entry.amount))
    (s : BudgetScope) {types : List EntryType} (hne : types ≠ []) {weight : Entry → Decimal}
    (habs : ∀ x, |(weight x).val| = |x.amount.val|) (hscale : ∀ x, (weight x).scale = x.amount.scale)
    (hdoc : ∀ D k, 0 ≤ (((l.select { source := some D }).filter
      fun x => x.key = k && types.contains x.entryType).map fun x => (weight x).val).sum) :
    ∃ r, l.total s types weight = .ok r ∧ Decimal.zero ≤ r := by
  have hroomL : Decimal.Room S ((l.select { scope := some s, types }).map weight) :=
    (hroom.sublist (List.filter_sublist.map Entry.amount)).congr (fun x _ => habs x)
      (fun x _ => hscale x)
  obtain ⟨r, hr, hrv, -⟩ := Decimal.sum_exact hroomL
  refine ⟨r, hr, ?_⟩
  rw [Decimal.le_iff_val, Decimal.val_zero, hrv, List.map_map]
  -- group the scope's rows by document and key
  refine sum_nonneg_of_groups (fun x => (x.source, x.key)) _ _ fun ⟨D, k⟩ => ?_
  have hisEmpty : types.isEmpty = false := by simpa using hne
  by_cases hk : s.contains k
  · -- a key of the scope: the group is the document's rows of that key
    have hgroup : (l.select { scope := some s, types }).filter (fun x => (x.source, x.key) = (D, k)) =
        (l.select { source := some D }).filter fun x => x.key = k && types.contains x.entryType := by
      simp only [Ledger.select, List.filter_filter]
      refine List.filter_congr fun x _ => ?_
      by_cases hxD : x.source = D
      · by_cases hxk : x.key = k
        · simp [LedgerQuery.admits, hxD, hxk, hk, hisEmpty]
        · simp [LedgerQuery.admits, hxD, hxk]
      · simp [LedgerQuery.admits, hxD, Ne.symm hxD]
    rw [hgroup]
    exact hdoc D k
  · -- a key outside the scope has no rows in it
    have hnil : (l.select { scope := some s, types }).filter (fun x => (x.source, x.key) = (D, k)) =
        [] := by
      refine List.filter_eq_nil_iff.2 fun x hx => ?_
      have hadm := (List.mem_filter.1 hx).2
      by_cases hxk : x.key = k
      · simp [LedgerQuery.admits, hxk, hk] at hadm
      · simp [hxk]
    rw [hnil]
    simp

end Encumbrance
