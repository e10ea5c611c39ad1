import Mathlib
import Encumbrance.Ledger.Lock

/-!
# Scope order and scope locks

Budget scopes are ordered field by field, an absent account, project or branch first. That
comparison is a lawful total order: it is the lexicographic combination of the orders of its
fields. So the scopes a writer takes, sorted and without repeats, come in strictly ascending
order, and an attempt that meets a held scope gives up at the least held one.

A successful attempt adds its scopes to the held ones and the release takes exactly those
away again, so a writer that returns leaves the held scopes as it found them.
-/

namespace Encumbrance

open Std

theorem compareOption_eq (a b : Option String) : compareOption a b = compare a b := by
  cases a <;> cases b <;> rfl

namespace BudgetScope

/-- The scope order is the lexicographic order of the fields. -/
theorem cmp_eq_compareLex : cmp = compareLex (compareOn (·.company))
    (compareLex (compareOn (·.fiscalPeriod)) (compareLex (compareOn (·.costCenter))
      (compareLex (compareOn (·.account))
        (compareLex (compareOn (·.project)) (compareOn (·.branch)))))) := by
  funext a b
  simp only [cmp, compareLex, compareOn, compareOption_eq]

instance : TransCmp cmp := by rw [cmp_eq_compareLex]; infer_instance

instance : LawfulEqCmp cmp where
  eq_of_compare {a b} h := by
    rw [cmp_eq_compareLex] at h
    simp only [compareLex_eq_eq, compareOn, LawfulEqOrd.compare_eq_iff_eq] at h
    cases a; cases b; simp_all

theorem cmp_self (s : BudgetScope) : s.cmp s = .eq := ReflCmp.compare_self

theorem cmp_ne_gt_total (a b : BudgetScope) : a.cmp b ≠ .gt ∨ b.cmp a ≠ .gt := by
  by_cases h : a.cmp b = .gt
  · exact .inr (by rw [OrientedCmp.gt_iff_lt.1 h]; decide)
  · exact .inl h

theorem cmp_ne_gt_trans {a b c : BudgetScope} (hab : a.cmp b ≠ .gt) (hbc : b.cmp c ≠ .gt) :
    a.cmp c ≠ .gt := by
  simp only [ne_eq, Ordering.ne_gt_iff_isLE] at *
  exact TransCmp.isLE_trans hab hbc

end BudgetScope

/-- Dropping repeats keeps the rest in order. -/
theorem eraseDups_sublist {α : Type} [BEq α] : ∀ l : List α, l.eraseDups.Sublist l
  | [] => by simp
  | a :: as => by
    rw [List.eraseDups_cons]
    exact ((eraseDups_sublist _).trans (List.filter_sublist)).cons_cons a
termination_by l => l.length
decreasing_by have := List.length_filter_le (fun b => !b == a) as; simp only [List.length_cons]; omega

namespace LockTable

/-! ## Section 1: Ordered scopes -/

theorem mem_ordered {s : BudgetScope} {scopes : List BudgetScope} :
    s ∈ ordered scopes ↔ s ∈ scopes := by
  simp [ordered, List.mem_eraseDups, List.mem_mergeSort]

/-- The scopes a writer takes come in scope order. -/
theorem ordered_pairwise (scopes : List BudgetScope) :
    (ordered scopes).Pairwise fun a b => a.cmp b ≠ .gt := by
  have htrans : ∀ a b c : BudgetScope, (a.cmp b != .gt) = true → (b.cmp c != .gt) = true →
      (a.cmp c != .gt) = true := fun a b c hab hbc => by
    simpa using BudgetScope.cmp_ne_gt_trans (by simpa using hab) (by simpa using hbc)
  have hsorted := List.pairwise_mergeSort htrans
    (fun a b => by simpa using BudgetScope.cmp_ne_gt_total a b) scopes
  exact ((hsorted.sublist (eraseDups_sublist _)).imp fun h => by simpa using h)

/-- The first member of an ordered list with a property is the least such member. -/
theorem find?_least {p : BudgetScope → Bool} {xs : List BudgetScope} {m : BudgetScope}
    (hsorted : xs.Pairwise fun a b => a.cmp b ≠ .gt) (hm : xs.find? p = some m) :
    m ∈ xs ∧ p m ∧ ∀ s ∈ xs, p s → m.cmp s ≠ .gt := by
  obtain ⟨hpm, as, bs, rfl, hbefore⟩ := List.find?_eq_some_iff_append.1 hm
  refine ⟨by simp, hpm, fun s hs hps => ?_⟩
  rcases List.mem_append.1 hs with hs | hs
  · exact absurd hps (by simpa using hbefore s hs)
  rcases List.mem_cons.1 hs with rfl | hs
  · rw [BudgetScope.cmp_self]; decide
  · exact List.rel_of_pairwise_cons (List.pairwise_append.1 hsorted).2.1 hs

/-! ## Section 2: Taking and giving back -/

@[simp] theorem withSlots_held (t : LockTable) (scopes : List BudgetScope) :
    (t.withSlots scopes).held = t.held := rfl

@[simp] theorem clearIdle_held (t : LockTable) (scopes : List BudgetScope) :
    (t.clearIdle scopes).held = t.held := rfl

/-- An attempt that meets a held scope names the least held scope it asked for, and holds
    nothing new. -/
theorem acquire_error {t t' : LockTable} {scopes : List BudgetScope} {blocked : BudgetScope}
    (h : t.acquire scopes = .error (blocked, t')) :
    blocked ∈ scopes ∧ blocked ∈ t.held ∧ (∀ s ∈ scopes, s ∈ t.held → blocked.cmp s ≠ .gt) ∧
      t'.held = t.held := by
  simp only [acquire] at h
  split at h
  · rename_i m hm
    cases h
    obtain ⟨hmem, hp, hleast⟩ := find?_least (ordered_pairwise scopes) hm
    refine ⟨mem_ordered.1 hmem, by simpa using hp, fun s hs hheld => ?_, rfl⟩
    exact hleast s (mem_ordered.2 hs) (by simpa using hheld)
  · cases h

/-- An attempt fails exactly when one of its scopes is held. -/
theorem acquire_error_of_held {t : LockTable} {scopes : List BudgetScope} {s : BudgetScope}
    (hs : s ∈ scopes) (hheld : s ∈ t.held) :
    ∃ blocked t', t.acquire scopes = .error (blocked, t') := by
  simp only [acquire]
  split
  · exact ⟨_, _, rfl⟩
  · rename_i hnone
    exact absurd (List.find?_eq_none.1 hnone s (mem_ordered.2 hs)) (by simpa using hheld)

/-- A successful attempt found none of its scopes held, and holds them all on top. -/
theorem acquire_ok {t t' : LockTable} {scopes : List BudgetScope} (h : t.acquire scopes = .ok t') :
    (∀ s ∈ scopes, s ∉ t.held) ∧ t'.held = t.held ++ ordered scopes := by
  simp only [acquire] at h
  split at h
  · cases h
  · rename_i hnone
    cases h
    refine ⟨fun s hs hheld => ?_, rfl⟩
    exact absurd (List.find?_eq_none.1 hnone s (mem_ordered.2 hs)) (by simpa using hheld)

@[simp] theorem release_held (t : LockTable) (scopes : List BudgetScope) (aborted : Bool) :
    (t.release scopes aborted).held = t.held.filter fun s => !(ordered scopes).contains s := by
  unfold release; cases aborted <;> rfl

/-- Giving back what a successful attempt took leaves the held scopes as they were. -/
theorem release_acquire {t t' : LockTable} {scopes : List BudgetScope}
    (h : t.acquire scopes = .ok t') (aborted : Bool) :
    (t'.release scopes aborted).held = t.held := by
  obtain ⟨hfree, hheld⟩ := acquire_ok h
  rw [release_held, hheld, List.filter_append]
  have hkeep : t.held.filter (fun s => !(ordered scopes).contains s) = t.held :=
    List.filter_eq_self.2 fun s hs => by
      simpa [mem_ordered] using fun hmem => hfree s hmem hs
  have hdrop : (ordered scopes).filter (fun s => !(ordered scopes).contains s) = [] :=
    List.filter_eq_nil_iff.2 fun s hs => by simpa using hs
  rw [hkeep, hdrop, List.append_nil]

end LockTable

end Encumbrance
