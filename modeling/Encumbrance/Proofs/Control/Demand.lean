import Mathlib
import Encumbrance.Control.Controller
import Encumbrance.Proofs.Ledger.Append

/-! # The demand of a batch

    Before it takes any lock, an append adds up the batch's outflow per budget scope
    (`Engine.addDemand`, folded over the drafts). The scopes of that demand are the scopes the
    append locks and checks. This module shows they are exactly the scopes of the batch's keys.
-/

namespace Encumbrance

namespace Engine

/-- One draft adds its own scope to the demand's scopes and no other. -/
theorem mem_scopes_addDemand {byAccount : Bool} {acc acc' : List (BudgetScope × Decimal)}
    {d : EntryDraft} (h : addDemand byAccount acc d = .ok acc') (s : BudgetScope) :
    s ∈ acc'.map (·.1) ↔ s ∈ acc.map (·.1) ∨ s = BudgetScope.ofKey d.key byAccount := by
  unfold addDemand at h
  obtain ⟨after, -, h⟩ := bind_eq_ok h
  split at h
  · -- the scope is there already: its amount is replaced in place
    rename_i hany
    cases h
    obtain ⟨p, hp, hps⟩ := List.any_eq_true.1 hany
    have hold : BudgetScope.ofKey d.key byAccount ∈ acc.map (·.1) :=
      List.mem_map.2 ⟨p, hp, by simpa using hps⟩
    constructor
    · intro hs
      obtain ⟨q, hq, rfl⟩ := List.mem_map.1 hs
      obtain ⟨q', hq', rfl⟩ := List.mem_map.1 hq
      by_cases heq : q'.1 = BudgetScope.ofKey d.key byAccount
      · exact .inr (by simp [heq])
      · exact .inl (List.mem_map.2 ⟨q', hq', by simp [heq]⟩)
    · rintro (hs | rfl)
      · obtain ⟨q, hq, rfl⟩ := List.mem_map.1 hs
        refine List.mem_map.2 ⟨_, List.mem_map_of_mem hq, ?_⟩
        by_cases heq : q.1 = BudgetScope.ofKey d.key byAccount <;> simp [heq]
      · obtain ⟨q, hq, hq1⟩ := List.mem_map.1 hold
        refine List.mem_map.2 ⟨_, List.mem_map_of_mem hq, ?_⟩
        simp [hq1]
  · -- a new scope is added and the demand sorted again
    cases h
    simp [List.mem_mergeSort, eq_comm]

/-- The scopes of a batch's demand are the scopes of its drafts' keys. -/
theorem mem_scopes_foldlM_addDemand {byAccount : Bool} :
    ∀ {ds : List EntryDraft} {acc needs : List (BudgetScope × Decimal)},
      ds.foldlM (addDemand byAccount) acc = .ok needs → ∀ s,
        s ∈ needs.map (·.1) ↔ s ∈ acc.map (·.1) ∨ ∃ d ∈ ds, BudgetScope.ofKey d.key byAccount = s
  | [], acc, needs, h, s => by
    cases h
    simp
  | d :: ds, acc, needs, h, s => by
    rw [List.foldlM_cons] at h
    obtain ⟨acc', hstep, hrest⟩ := bind_eq_ok h
    rw [mem_scopes_foldlM_addDemand hrest s, mem_scopes_addDemand hstep s]
    constructor
    · rintro ((hs | rfl) | ⟨d', hd', rfl⟩)
      · exact .inl hs
      · exact .inr ⟨d, List.mem_cons_self, rfl⟩
      · exact .inr ⟨d', List.mem_cons_of_mem _ hd', rfl⟩
    · rintro (hs | ⟨d', hd', rfl⟩)
      · exact .inl (.inl hs)
      · rcases List.mem_cons.1 hd' with rfl | hd'
        · exact .inl (.inr rfl)
        · exact .inr ⟨d', hd', rfl⟩

/-- The scopes of a batch's demand, from nothing. -/
theorem mem_demandScopes {byAccount : Bool} {ds : List EntryDraft}
    {needs : List (BudgetScope × Decimal)} (h : ds.foldlM (addDemand byAccount) [] = .ok needs)
    (s : BudgetScope) :
    s ∈ needs.map (·.1) ↔ ∃ d ∈ ds, BudgetScope.ofKey d.key byAccount = s := by
  simpa using mem_scopes_foldlM_addDemand h s

/-- Every scope of a batch's demand is the scope of a key. -/
theorem demandScopes_ofKey {byAccount : Bool} {ds : List EntryDraft}
    {needs : List (BudgetScope × Decimal)} (h : ds.foldlM (addDemand byAccount) [] = .ok needs) :
    ∀ s ∈ needs.map (·.1), ∃ k, s = BudgetScope.ofKey k byAccount := by
  intro s hs
  obtain ⟨d, -, hds⟩ := (mem_demandScopes h s).1 hs
  exact ⟨d.key, hds.symm⟩

/-- No draft's scope is left out of the batch's demand. -/
theorem filter_not_mem_demandScopes {byAccount : Bool} {ds : List EntryDraft}
    {needs : List (BudgetScope × Decimal)} (h : ds.foldlM (addDemand byAccount) [] = .ok needs) :
    (ds.map fun d => BudgetScope.ofKey d.key byAccount).filter (· ∉ needs.map (·.1)) = [] := by
  refine List.filter_eq_nil_iff.2 fun s hs => ?_
  obtain ⟨d, hdm, rfl⟩ := List.mem_map.1 hs
  simpa using (mem_demandScopes h _).2 ⟨d, hdm, rfl⟩

end Engine

end Encumbrance
