import Mathlib
import Encumbrance.Proofs.Availability.Figures

/-! # The availability gate

    A checked append adds up the outflow of its batch per budget scope, takes the locks of
    those scopes, and checks every scope whose demand is positive against what it has
    available. The scopes where the demand is above that are the batch's shortfalls: with
    any of them, a principal without the overrun role is refused and nothing is written;
    otherwise the batch is written and the shortfalls are reported as overruns.

    This module states that law in exact arithmetic. The demand on a scope is the sum of the
    outflows of the drafts whose keys lie in it (`scopeDemand`), and the shortfalls are the
    batch's scopes in ascending order with positive demand above `Books.availableVal`
    (`Books.shortfallsFor`). With room for every amount involved, with the cache agreeing with
    the live figures, and with none of the batch's scopes held, the append answers exactly by
    that law. Reaching the locking state and moving budget by a reclass are checked appends,
    and obey it (`Engine.ReachGate`, `Engine.ReclassGate`) in every state a run of requests
    reaches from an engine with an empty cache, where the cache agrees with the live figures.
-/

namespace Encumbrance

open Decimal

/-! ## Section 1: Scope order -/

namespace BudgetScope

/-- Two scopes neither of which comes after the other are the same scope. -/
theorem eq_of_cmp_ne_gt {a b : BudgetScope} (hab : a.cmp b ≠ .gt) (hba : b.cmp a ≠ .gt) : a = b := by
  have hlt : a.cmp b ≠ .lt := fun h => hba (Std.OrientedCmp.gt_iff_lt.2 h)
  have heq : a.cmp b = .eq := by
    cases h : a.cmp b
    · exact absurd h hlt
    · rfl
    · exact absurd h hab
  exact Std.LawfulEqCmp.eq_of_compare heq

/-- Lists of scopes in order, without repeats and with the same members, are the same list. -/
theorem eq_of_sorted {xs ys : List BudgetScope} (hxs : xs.Pairwise fun a b => a.cmp b ≠ .gt)
    (hys : ys.Pairwise fun a b => a.cmp b ≠ .gt) (hxn : xs.Nodup) (hyn : ys.Nodup)
    (hmem : ∀ s, s ∈ xs ↔ s ∈ ys) : xs = ys :=
  List.Perm.eq_of_pairwise (fun _ _ _ _ hab hba => eq_of_cmp_ne_gt hab hba) hxs hys
    ((List.perm_ext_iff_of_nodup hxn hyn).2 hmem)

end BudgetScope

/-- Dropping repeats leaves none. -/
theorem nodup_eraseDups {α : Type} [BEq α] [LawfulBEq α] : ∀ l : List α, l.eraseDups.Nodup
  | [] => List.nodup_nil
  | a :: as => by
    rw [List.eraseDups_cons]
    refine List.nodup_cons.2 ⟨fun h => ?_, nodup_eraseDups _⟩
    simpa using List.mem_eraseDups.1 h
termination_by l => l.length
decreasing_by have := List.length_filter_le (fun b => !b == a) as; simp only [List.length_cons]; omega

theorem LockTable.nodup_ordered (scopes : List BudgetScope) : (LockTable.ordered scopes).Nodup :=
  nodup_eraseDups _

/-! ## Section 2: Demand per scope -/

/-- The demand keyed amounts put on a scope: the sum of the amounts whose keys lie in it. -/
def scopeDemand (xs : List (DimensionKey × ℚ)) (S : BudgetScope) : ℚ :=
  ((xs.filter fun p => S.contains p.1).map (·.2)).sum

/-- A batch as keyed amounts: each draft's key with its outflow. -/
def outflows (ds : List EntryDraft) : List (DimensionKey × ℚ) := ds.map fun d => (d.key, d.outflow.val)

@[simp] theorem outflows_append (xs ys : List EntryDraft) :
    outflows (xs ++ ys) = outflows xs ++ outflows ys := List.map_append

theorem scopeDemand_append_single (xs : List (DimensionKey × ℚ)) (k : DimensionKey) (v : ℚ)
    (S : BudgetScope) :
    scopeDemand (xs ++ [(k, v)]) S = scopeDemand xs S + if S.contains k then v else 0 := by
  unfold scopeDemand
  rw [List.filter_append, List.map_append, List.sum_append]
  cases hk : S.contains k <;> simp [hk]

/-- A scope no key of which has an amount has no demand. -/
theorem scopeDemand_eq_zero {xs : List (DimensionKey × ℚ)} {S : BudgetScope}
    (h : ∀ p ∈ xs, S.contains p.1 = false) : scopeDemand xs S = 0 := by
  unfold scopeDemand
  rw [List.filter_eq_nil_iff.2 fun p hp => by simp [h p hp]]
  rfl

/-- The demand on a scope weighs at most all the amounts of the batch. -/
theorem abs_scopeDemand_le (ds : List EntryDraft) (S : BudgetScope) :
    |scopeDemand (outflows ds) S| ≤ ((ds.map EntryDraft.amount).map fun x => |x.val|).sum := by
  have hsub : ((outflows ds).filter fun p => S.contains p.1).Sublist (outflows ds) := List.filter_sublist
  calc |scopeDemand (outflows ds) S|
      ≤ ((((outflows ds).filter fun p => S.contains p.1).map (·.2)).map fun x : ℚ => |x|).sum := by
        simpa [scopeDemand] using Multiset.abs_sum_le_sum_abs
          (s := ((((outflows ds).filter fun p => S.contains p.1).map (·.2) : List ℚ) : Multiset ℚ))
    _ ≤ (((outflows ds).map (·.2)).map fun x : ℚ => |x|).sum :=
        ((hsub.map _).map _).sum_le_sum fun _ ha => by
          obtain ⟨_, _, rfl⟩ := List.mem_map.1 ha; exact abs_nonneg _
    _ = ((ds.map EntryDraft.amount).map fun x => |x.val|).sum := by
        simp [outflows, List.map_map, Function.comp_def, EntryDraft.abs_outflow]

/-- `acc` is the demand of the drafts `xs`: their scopes in order and without repeats, each
    with the exact sum of the outflows of the drafts in it, at a scale at most `S`. -/
structure DemandOf (byAccount : Bool) (S : ℕ) (xs : List EntryDraft)
    (acc : List (BudgetScope × Decimal)) : Prop where
  sorted : (acc.map (·.1)).Pairwise fun a b => a.cmp b ≠ .gt
  nodup : (acc.map (·.1)).Nodup
  mem : ∀ s, s ∈ acc.map (·.1) ↔ ∃ d ∈ xs, BudgetScope.ofKey d.key byAccount = s
  exact : ∀ n ∈ acc, n.2.val = scopeDemand (outflows xs) n.1 ∧ n.2.scale ≤ S

namespace DemandOf

variable {byAccount : Bool} {S : ℕ} {xs : List EntryDraft} {acc : List (BudgetScope × Decimal)}

theorem nil (byAccount : Bool) (S : ℕ) : DemandOf byAccount S [] [] :=
  ⟨List.Pairwise.nil, List.nodup_nil, fun _ => by simp, fun _ h => absurd h List.not_mem_nil⟩

/-- A draft leaves the demand on the other scopes of the batch as it was. -/
theorem exact_other (h : DemandOf byAccount S xs acc) {d : EntryDraft} {n : BudgetScope × Decimal}
    (hn : n ∈ acc) (hne : n.1 ≠ BudgetScope.ofKey d.key byAccount) :
    scopeDemand (outflows (xs ++ [d])) n.1 = scopeDemand (outflows xs) n.1 := by
  obtain ⟨d', -, hd'⟩ := (h.mem n.1).1 (List.mem_map_of_mem hn)
  have hout : n.1.contains d.key = false := by
    rw [Bool.eq_false_iff]
    intro hc
    rw [← hd'] at hc hne
    exact hne (BudgetScope.contains_ofKey_iff.1 hc).symm
  simp [outflows, scopeDemand_append_single, hout]

/-- The scopes of one more draft's batch are the scopes so far and the draft's own. -/
theorem mem_append_single (h : DemandOf byAccount S xs acc) (d : EntryDraft) (s : BudgetScope) :
    (∃ d' ∈ xs ++ [d], BudgetScope.ofKey d'.key byAccount = s) ↔
      s ∈ acc.map (·.1) ∨ BudgetScope.ofKey d.key byAccount = s := by
  rw [h.mem]
  constructor
  · rintro ⟨d', hd', rfl⟩
    rcases List.mem_append.1 hd' with hd' | hd'
    · exact .inl ⟨d', hd', rfl⟩
    · rw [List.mem_singleton.1 hd']
      exact .inr rfl
  · rintro (⟨d', hd', rfl⟩ | rfl)
    · exact ⟨d', List.mem_append_left _ hd', rfl⟩
    · exact ⟨d, List.mem_append_right _ (List.mem_singleton_self d), rfl⟩

/-- What the demand holds for a key's scope, read as `addDemand` reads it: the exact demand of
    the drafts so far, zero when none of them lies in the scope. -/
theorem found (h : DemandOf byAccount S xs acc) {k : DimensionKey} {before : Decimal}
    (hbefore : ((acc.find? (·.1 = BudgetScope.ofKey k byAccount)).map (·.2)).getD Decimal.zero =
      before) :
    before.val = scopeDemand (outflows xs) (BudgetScope.ofKey k byAccount) ∧ before.scale ≤ S := by
  cases hf : acc.find? (·.1 = BudgetScope.ofKey k byAccount) with
  | some n =>
    simp only [hf, Option.map_some, Option.getD_some] at hbefore
    subst hbefore
    have hn := List.mem_of_find?_eq_some hf
    have hns : n.1 = BudgetScope.ofKey k byAccount := by simpa using List.find?_some hf
    exact hns ▸ h.exact n hn
  | none =>
    simp only [hf, Option.map_none, Option.getD_none] at hbefore
    subst hbefore
    refine ⟨?_, Nat.zero_le _⟩
    -- no draft so far lies in the scope
    rw [val_zero, eq_comm]
    refine scopeDemand_eq_zero fun p hp => ?_
    obtain ⟨d', hd', rfl⟩ := List.mem_map.1 hp
    rw [Bool.eq_false_iff]
    intro hc
    obtain ⟨n, hn, hns⟩ :=
      List.mem_map.1 ((h.mem _).2 ⟨d', hd', BudgetScope.contains_ofKey_iff.1 hc⟩)
    exact absurd (List.find?_eq_none.1 hf n hn) (by simp [hns])

/-- A draft whose scope has a demand already: that entry is replaced in place by the scope's
    new demand, and the rest stays. -/
theorem replace (h : DemandOf byAccount S xs acc) {d : EntryDraft} {after : Decimal}
    (hs : BudgetScope.ofKey d.key byAccount ∈ acc.map (·.1))
    (hnew : after.val = scopeDemand (outflows (xs ++ [d])) (BudgetScope.ofKey d.key byAccount))
    (hafts : after.scale ≤ S) :
    DemandOf byAccount S (xs ++ [d]) (acc.map fun p =>
      if p.1 = BudgetScope.ofKey d.key byAccount then (BudgetScope.ofKey d.key byAccount, after)
      else p) := by
  have hfst : (acc.map fun p => if p.1 = BudgetScope.ofKey d.key byAccount then
      (BudgetScope.ofKey d.key byAccount, after) else p).map (·.1) = acc.map (·.1) := by
    rw [List.map_map]
    refine List.map_congr_left fun p _ => ?_
    by_cases hp : p.1 = BudgetScope.ofKey d.key byAccount <;> simp [hp]
  refine ⟨hfst ▸ h.sorted, hfst ▸ h.nodup, fun s' => ?_, fun n hn => ?_⟩
  · rw [hfst, h.mem_append_single d s']
    exact ⟨.inl, fun hs' => hs'.elim id fun he => he ▸ hs⟩
  · obtain ⟨p, hp, rfl⟩ := List.mem_map.1 hn
    by_cases hps : p.1 = BudgetScope.ofKey d.key byAccount
    · simp only [hps, if_true]
      exact ⟨hnew, hafts⟩
    · simp only [hps, if_false]
      exact ⟨(h.exact p hp).1.trans (h.exact_other hp hps).symm, (h.exact p hp).2⟩

/-- A draft whose scope has no demand yet: the scope is added with its demand, and the demand
    sorted again into scope order. -/
theorem insert (h : DemandOf byAccount S xs acc) {d : EntryDraft} {after : Decimal}
    (hs : BudgetScope.ofKey d.key byAccount ∉ acc.map (·.1))
    (hnew : after.val = scopeDemand (outflows (xs ++ [d])) (BudgetScope.ofKey d.key byAccount))
    (hafts : after.scale ≤ S) :
    DemandOf byAccount S (xs ++ [d])
      ((acc ++ [(BudgetScope.ofKey d.key byAccount, after)]).mergeSort
        fun a b => a.1.cmp b.1 != .gt) := by
  have hperm := List.mergeSort_perm (acc ++ [(BudgetScope.ofKey d.key byAccount, after)])
    fun a b => a.1.cmp b.1 != .gt
  have htrans : ∀ a b c : BudgetScope × Decimal, (a.1.cmp b.1 != .gt) = true →
      (b.1.cmp c.1 != .gt) = true → (a.1.cmp c.1 != .gt) = true := fun a b c hab hbc => by
    simpa using BudgetScope.cmp_ne_gt_trans (by simpa using hab) (by simpa using hbc)
  refine ⟨?_, ?_, fun s' => ?_, fun n hn => ?_⟩
  · have hsorted := List.pairwise_mergeSort htrans
      (fun a b => by simpa using BudgetScope.cmp_ne_gt_total a.1 b.1)
      (acc ++ [(BudgetScope.ofKey d.key byAccount, after)])
    exact List.pairwise_map.2 (hsorted.imp fun h => by simpa using h)
  · rw [(hperm.map _).nodup_iff, List.map_append]
    refine List.nodup_append.2 ⟨h.nodup, List.nodup_singleton _, fun a ha b hb => ?_⟩
    rw [List.map_singleton, List.mem_singleton] at hb
    rintro rfl
    have ha' : a = BudgetScope.ofKey d.key byAccount := hb
    exact hs (ha' ▸ ha)
  · rw [(hperm.map _).mem_iff, List.map_append, List.mem_append, h.mem_append_single d s',
      List.map_singleton, List.mem_singleton, eq_comm (a := s')]
  · rcases List.mem_append.1 (hperm.subset hn) with hn' | hn'
    · have hne : n.1 ≠ BudgetScope.ofKey d.key byAccount := fun he =>
        hs (he ▸ List.mem_map_of_mem hn')
      exact ⟨(h.exact n hn').1.trans (h.exact_other hn' hne).symm, (h.exact n hn').2⟩
    · rw [List.mem_singleton.1 hn']
      exact ⟨hnew, hafts⟩

/-- One more draft: its outflow is added to its scope's demand, exactly with room, and the
    demand stays in order. -/
theorem addDemand (h : DemandOf byAccount S xs acc) {d : EntryDraft}
    (hroom : Room S ((xs ++ [d]).map EntryDraft.amount)) :
    ∃ acc', Engine.addDemand byAccount acc d = .ok acc' ∧ DemandOf byAccount S (xs ++ [d]) acc' := by
  obtain ⟨before, hbefore⟩ : ∃ before : Decimal,
      ((acc.find? (·.1 = BudgetScope.ofKey d.key byAccount)).map (·.2)).getD Decimal.zero =
        before := ⟨_, rfl⟩
  obtain ⟨hbv, hbs⟩ := h.found hbefore
  -- the sum so far and the new outflow fit together
  have hfit := hroom.fits
  simp only [List.map_append, List.map_cons, List.map_nil, List.sum_append, List.sum_cons,
    List.sum_nil, add_zero] at hfit
  have hb : |before.val| ≤ ((xs.map EntryDraft.amount).map fun x => |x.val|).sum :=
    hbv ▸ abs_scopeDemand_le xs _
  have hscale : d.outflow.scale ≤ S := by
    have h' : d.outflow.scale = d.amount.scale := by unfold EntryDraft.outflow; split <;> rfl
    rw [h']
    exact hroom.scales _ (by simp)
  obtain ⟨after, hafter, haftv, hafts⟩ := add_exact hbs hscale hroom.scale_le
    (lt_of_le_of_lt (mul_le_mul_of_nonneg_right (by rw [EntryDraft.abs_outflow]; linarith)
      (by positivity)) hfit)
  have hnew : after.val = scopeDemand (outflows (xs ++ [d])) (BudgetScope.ofKey d.key byAccount) := by
    rw [haftv, hbv, outflows_append]
    simp [outflows, scopeDemand_append_single, BudgetScope.contains_ofKey]
  have hstep : Engine.addDemand byAccount acc d =
      if acc.any (·.1 = BudgetScope.ofKey d.key byAccount) then
        .ok (acc.map fun p => if p.1 = BudgetScope.ofKey d.key byAccount then
          (BudgetScope.ofKey d.key byAccount, after) else p)
      else .ok ((acc ++ [(BudgetScope.ofKey d.key byAccount, after)]).mergeSort
        fun a b => a.1.cmp b.1 != .gt) := by
    simp only [Engine.addDemand, hbefore, hafter]
    rfl
  rw [hstep]
  split
  · -- the scope has a demand already
    rename_i hany
    obtain ⟨p, hp, hps⟩ := List.any_eq_true.1 hany
    exact ⟨_, rfl, h.replace (List.mem_map.2 ⟨p, hp, by simpa using hps⟩) hnew hafts⟩
  · -- a new scope
    rename_i hany
    refine ⟨_, rfl, h.insert (fun hs => hany ?_) hnew hafts⟩
    obtain ⟨p, hp, hps⟩ := List.mem_map.1 hs
    exact List.any_eq_true.2 ⟨p, hp, by simpa using hps⟩

/-- The whole fold: the demand of a batch with room is exact and in order. -/
theorem foldlM :
    ∀ (ys : List EntryDraft) {xs : List EntryDraft} {acc : List (BudgetScope × Decimal)},
      DemandOf byAccount S xs acc →
      Room S ((xs ++ ys).map EntryDraft.amount) →
      ∃ needs, ys.foldlM (Engine.addDemand byAccount) acc = .ok needs ∧
        DemandOf byAccount S (xs ++ ys) needs
  | [], xs, acc, h, _ => ⟨acc, rfl, by simpa using h⟩
  | d :: ys, xs, acc, h, hroom => by
    obtain ⟨acc', h1, h1'⟩ := h.addDemand (d := d)
      (hroom.sublist ((List.sublist_append_left (xs ++ [d]) ys).map _ |>.trans (by simp)))
    obtain ⟨needs, h2, h2'⟩ := foldlM ys h1' (by simpa using hroom)
    refine ⟨needs, ?_, by simpa using h2'⟩
    rw [List.foldlM_cons, h1]
    exact h2

end DemandOf

/-- The demand of a batch with room: exact per scope, and over the batch's scopes in the order
    the locks are taken. -/
theorem demand_exact (byAccount : Bool) {S : ℕ} {ds : List EntryDraft}
    (hroom : Room S (ds.map EntryDraft.amount)) :
    ∃ needs, ds.foldlM (Engine.addDemand byAccount) [] = .ok needs ∧ DemandOf byAccount S ds needs ∧
      needs.map (·.1) = LockTable.ordered (ds.map fun d => BudgetScope.ofKey d.key byAccount) := by
  obtain ⟨needs, hneeds, h⟩ := (DemandOf.nil byAccount S).foldlM ds (by simpa using hroom)
  rw [List.nil_append] at h
  refine ⟨needs, hneeds, h, BudgetScope.eq_of_sorted h.sorted (LockTable.ordered_pairwise _) h.nodup
    (LockTable.nodup_ordered _) fun s => ?_⟩
  rw [h.mem, LockTable.mem_ordered, List.mem_map]

/-! ## Section 3: Shortfalls -/

/-- A shortfall as numbers: the scope, what was asked of it, what it had and the difference. -/
def Shortfall.vals (r : Shortfall) : BudgetScope × ℚ × ℚ × ℚ :=
  (r.scope, r.requested.val, r.available.val, r.shortfall.val)

namespace Books

/-- The shortfalls of keyed amounts: in the order the locks are taken, each scope of a key whose
    demand is positive and above what the scope has available, with its demand, its available
    amount and the difference. -/
def shortfallsFor (b : Books) (byAccount : Bool) (xs : List (DimensionKey × ℚ)) :
    List (BudgetScope × ℚ × ℚ × ℚ) :=
  ((LockTable.ordered (xs.map fun p => BudgetScope.ofKey p.1 byAccount)).filter fun S =>
      0 < scopeDemand xs S ∧ b.availableVal S < scopeDemand xs S).map fun S =>
    (S, scopeDemand xs S, b.availableVal S, scopeDemand xs S - b.availableVal S)

/-- Checking the scopes with a positive demand and keeping the failed checks gives the scopes
    whose demand is above what they have, as `f` reports them. -/
theorem shortfalls_of_standings (b : Books) (D : BudgetScope → ℚ) {f : Availability → Shortfall}
    (hf : ∀ r, (f r).vals = (r.scope, r.requested.val, r.available.val, r.shortfall.val)) :
    ∀ (needs : List (BudgetScope × Decimal)) (rs : List Availability),
      (∀ n ∈ needs, n.2.val = D n.1) →
      rs.map Availability.vals = (needs.filter fun n => Decimal.zero < n.2).map
        (fun n => b.standing n.1 n.2.val) →
      ((rs.filter (!·.ok)).map f).map Shortfall.vals =
        ((needs.map (·.1)).filter fun S => 0 < D S ∧ b.availableVal S < D S).map
          fun S => (S, D S, b.availableVal S, D S - b.availableVal S)
  | [], rs, _, hrs => by
    rw [List.map_eq_nil_iff.1 hrs]
    rfl
  | n :: ns, rs, hD, hrs => by
    have hn := hD n List.mem_cons_self
    have hns : ∀ m ∈ ns, m.2.val = D m.1 := fun m hm => hD m (List.mem_cons_of_mem _ hm)
    by_cases hpos : Decimal.zero < n.2
    · rw [List.filter_cons_of_pos (by simpa using hpos), List.map_cons] at hrs
      obtain ⟨r, rs', rfl, hr, hrs'⟩ := List.map_eq_cons_iff.1 hrs
      have ih := shortfalls_of_standings b D hf ns rs' hns hrs'
      simp only [Availability.vals, standing, Prod.mk.injEq] at hr
      obtain ⟨hs, hq, ha, hok, hsh⟩ := hr
      have hpos' : 0 < D n.1 := by rw [← hn]; simpa [lt_iff_val] using hpos
      by_cases hfit : n.2.val ≤ b.availableVal n.1
      · -- the scope has enough: no shortfall
        have hok' : r.ok = true := by simpa [hfit] using hok
        have hnot : ¬(0 < D n.1 ∧ b.availableVal n.1 < D n.1) := fun h => by
          rw [← hn] at h; linarith [h.2]
        simp [hok', hnot, ih]
      · -- the scope falls short
        have hok' : r.ok = false := by simpa [hfit] using hok
        have hlt : b.availableVal n.1 < D n.1 := by rw [← hn]; linarith [not_le.1 hfit]
        simp only [List.filter_cons, hok', Bool.not_false, if_true, List.map_cons, hpos', hlt,
          and_self, decide_true]
        rw [ih, hf, hs, hq, ha, hsh, if_neg hfit, hn]
    · -- no demand: the scope is not checked
      rw [List.filter_cons_of_neg (by simpa using hpos)] at hrs
      have hneg : ¬(0 < D n.1 ∧ b.availableVal n.1 < D n.1) := fun h =>
        hpos (by rw [lt_iff_val, val_zero, hn]; exact h.1)
      rw [List.map_cons, List.filter_cons_of_neg (by simpa using hneg)]
      exact shortfalls_of_standings b D hf ns rs hns hrs

end Books

/-! ## Section 4: The gate law of a checked append -/

/-- One amount no larger than some of the amounts with room, at a scale within it, has room in
    their place. -/
theorem Decimal.Room.one_for {S : ℕ} {xs ys : List Decimal} {y : Decimal} (h : Room S (xs ++ ys))
    (hs : y.scale ≤ S) (hy : |y.val| ≤ (ys.map fun x => |x.val|).sum) : Room S (xs ++ [y]) where
  scale_le := h.scale_le
  scales x hx := by
    rcases List.mem_append.1 hx with hx | hx
    · exact h.scales x (List.mem_append_left _ hx)
    · rw [List.mem_singleton.1 hx]
      exact hs
  fits := by
    refine h.fits_of_le ?_
    simp only [List.map_append, List.sum_append, List.map_cons, List.map_nil, List.sum_cons,
      List.sum_nil, add_zero]
    linarith

/-- A batch that passes its checks is appended to any ledger. -/
theorem Ledger.append_of_valid (l : Ledger) {ds : List EntryDraft} (h : validateBatch ds = .ok ()) :
    ∃ es l', l.append ds = .ok (es, l') := by
  unfold Ledger.append
  rw [h]
  exact ⟨_, _, rfl⟩

namespace Engine

/-- The gate law of a checked append of the batch `ds` for the document `doc`, run from `e` to
    `e'` with result `r`, where `L` are the batch's shortfalls and `refuse` says that the
    principal may not overrun. With shortfalls and no right to overrun, it fails naming exactly
    them and writes nothing; otherwise it appends the batch and answers, through `answer`, with
    the rows written and the shortfalls as overruns. -/
structure Gated {α : Type} (L : List (BudgetScope × ℚ × ℚ × ℚ)) (refuse : Bool) (doc : DocumentRef)
    (ds : List EntryDraft) (answer : List Entry × List Shortfall → α) (e : Engine)
    (r : Except BudgetError α) (e' : Engine) : Prop where
  refused : L ≠ [] → refuse = true →
    (∃ sh, r = .error (.insufficient doc.toText sh) ∧ sh.map Shortfall.vals = L) ∧
      e'.books.ledger = e.books.ledger
  passed : L = [] ∨ refuse = false →
    ∃ es sh, r = .ok (answer (es, sh)) ∧ sh.map Shortfall.vals = L ∧
      e.books.ledger.append ds = .ok (es, e'.books.ledger)

section GateLaw

variable {α β : Type} {L : List (BudgetScope × ℚ × ℚ × ℚ)} {refuse : Bool} {doc : DocumentRef}
  {ds : List EntryDraft} {answer : List Entry × List Shortfall → α} {e e' : Engine}
  {r : Except BudgetError α}

/-- Passing the answer on keeps the law. -/
theorem Gated.map (h : Gated L refuse doc ds answer e r e') (f : α → β) :
    Gated L refuse doc ds (f ∘ answer) e (f <$> r) e' := by
  refine ⟨fun hL hrefuse => ?_, fun hpass => ?_⟩
  · obtain ⟨⟨sh, hr, hsh⟩, hl⟩ := h.refused hL hrefuse
    exact ⟨⟨sh, by rw [hr]; rfl, hsh⟩, hl⟩
  · obtain ⟨es, sh, hr, hsh, happ⟩ := h.passed hpass
    exact ⟨es, sh, by rw [hr]; rfl, hsh, happ⟩

/-- Only what the answer makes of the shortfalls `L` matters. -/
theorem Gated.congr (h : Gated L refuse doc ds answer e r e') {answer' : List Entry × List Shortfall → α}
    (hans : ∀ es sh, sh.map Shortfall.vals = L → answer (es, sh) = answer' (es, sh)) :
    Gated L refuse doc ds answer' e r e' := by
  refine ⟨h.refused, fun hpass => ?_⟩
  obtain ⟨es, sh, hr, hsh, happ⟩ := h.passed hpass
  exact ⟨es, sh, by rw [hr, hans es sh hsh], hsh, happ⟩

end GateLaw

open Books

/-- The locks on a batch's scopes are taken when none of its drafts' scopes is held: a lock
    that is refused names a held scope, and every scope of the demand is some draft's. -/
theorem acquire_ok_of_demand {e : Engine} {ds : List EntryDraft} {S : ℕ}
    {needs : List (BudgetScope × Decimal)} (hdem : DemandOf e.config.controlByAccount S ds needs)
    (hfree : ∀ d ∈ ds, e.scopeOf d.key ∉ e.books.locks.held) :
    ∃ t, e.books.locks.acquire (needs.map (·.1)) = .ok t := by
  rcases h : e.books.locks.acquire (needs.map (·.1)) with ⟨blocked, t⟩ | t
  · obtain ⟨hmem, hheld, -⟩ := LockTable.acquire_error h
    obtain ⟨d, hdm, rfl⟩ := (hdem.mem blocked).1 hmem
    exact absurd hheld (hfree d hdm)
  · exact ⟨t, h⟩

/-- The checked append obeys the gate law, with the shortfalls of its batch's outflows: when
    the cache agrees with the live figures, none of the batch's scopes is held, the batch
    passes its checks, and every amount of the books and the batch has room. -/
theorem appendChecked_gated {doc : DocumentRef} {ds : List EntryDraft} {p : Principal} {e : Engine}
    {S : ℕ} (hagree : e.CacheAgrees) (hfree : ∀ d ∈ ds, e.scopeOf d.key ∉ e.books.locks.held)
    (hvalid : validateBatch ds = .ok ()) (hroom : Room S (e.books.amounts ++ ds.map EntryDraft.amount)) :
    Gated (e.books.shortfallsFor e.config.controlByAccount (outflows ds)) (!p.hasRole e.config.overrunRole)
      doc ds id e (((appendChecked doc ds p).run).run e).1 (((appendChecked doc ds p).run).run e).2 := by
  obtain ⟨needs, hd, hdem, hord⟩ :=
    demand_exact e.config.controlByAccount (S := S) (hroom.sublist (List.sublist_append_right _ _))
  obtain ⟨t, hacq⟩ := acquire_ok_of_demand hdem hfree
  -- each scope with a positive demand is checked exactly
  have hchecks : ∀ n ∈ needs.filter (fun n => Decimal.zero < n.2),
      (∃ k, n.1 = BudgetScope.ofKey k e.config.controlByAccount) ∧
        Room S (({ e.books with locks := t } : Books).amounts ++ [n.2]) := by
    intro n hn
    have hn' := List.mem_of_mem_filter hn
    obtain ⟨d, -, hdn⟩ := (hdem.mem n.1).1 (List.mem_map_of_mem hn')
    refine ⟨⟨d.key, hdn.symm⟩, hroom.one_for (hdem.exact n hn').2 ?_⟩
    rw [(hdem.exact n hn').1]
    exact abs_scopeDemand_le ds n.1
  obtain ⟨rs, c, hrun, -, hrs⟩ := run_mapM_check _ ((cacheAgrees_locks t).2 hagree) hchecks
  have hsh := shortfalls_of_standings e.books (scopeDemand (outflows ds))
    (f := fun r => ⟨r.scope, r.requested, r.available, r.shortfall⟩) (fun r => rfl) needs rs
    (fun n hn => (hdem.exact n hn).1) hrs
  have hL : e.books.shortfallsFor e.config.controlByAccount (outflows ds) =
      ((needs.map (·.1)).filter fun S => 0 < scopeDemand (outflows ds) S ∧
        e.books.availableVal S < scopeDemand (outflows ds) S).map fun S =>
          (S, scopeDemand (outflows ds) S, e.books.availableVal S,
            scopeDemand (outflows ds) S - e.books.availableVal S) := by
    rw [hord]
    simp only [shortfallsFor, outflows, List.map_map]
    rfl
  rw [← hL] at hsh
  unfold appendChecked
  rw [run_bind, run_demand, hd]
  simp only [run_arith_ok, run_bind, run_get, run_onBooks]
  rw [run_withScopes_free hacq, run_bind, hrun]
  dsimp only
  split
  · -- refused: nothing is written
    rename_i hcond
    simp only [run_bind, run_throw]
    generalize List.map (fun r : Availability => (⟨r.scope, r.requested, r.available, r.shortfall⟩ : Shortfall))
      (List.filter (fun x => !x.ok) rs) = sh at hsh hcond ⊢
    refine ⟨fun _ _ => ⟨⟨sh, rfl, hsh⟩, rfl⟩, fun hpass => ?_⟩
    rcases hpass with hnil | hrole
    · rw [hnil, List.map_eq_nil_iff] at hsh
      simp [hsh] at hcond
    · simp [hrole] at hcond
  · -- passed: the batch is written
    rename_i hcond
    obtain ⟨es, l, happ⟩ := e.books.ledger.append_of_valid hvalid
    simp only [run_bind, run_write, happ, run_pure]
    generalize List.map (fun r : Availability => (⟨r.scope, r.requested, r.available, r.shortfall⟩ : Shortfall))
      (List.filter (fun x => !x.ok) rs) = sh at hsh hcond ⊢
    refine ⟨fun hne hrefuse => ?_, fun _ => ⟨es, sh, rfl, hsh, happ⟩⟩
    have hsh' : sh ≠ [] := fun h => hne (by rw [← hsh, h]; rfl)
    simp [hsh', hrefuse] at hcond


/-- Carrying out a checked plan obeys the gate law of its append, answering through the plan. -/
theorem checked_gated {α : Type} {doc : DocumentRef} {ds : List EntryDraft} {p : Principal}
    {k : List Entry × List Shortfall → α} {e : Engine} {S : ℕ} (hagree : e.CacheAgrees)
    (hfree : ∀ d ∈ ds, e.scopeOf d.key ∉ e.books.locks.held) (hvalid : validateBatch ds = .ok ())
    (hroom : Room S (e.books.amounts ++ ds.map EntryDraft.amount)) :
    Gated (e.books.shortfallsFor e.config.controlByAccount (outflows ds)) (!p.hasRole e.config.overrunRole)
      doc ds k e ((((Plan.checked doc ds p k).exec).run).run e).1
      ((((Plan.checked doc ds p k).exec).run).run e).2 := by
  have h := @appendChecked_gated doc ds p e S hagree hfree hvalid hroom
  rw [Plan.run_exec_checked, run_map]
  rcases hrun : ((appendChecked doc ds p).run).run e with ⟨r, e'⟩
  rw [hrun] at h
  cases r <;> exact h.map k

end Engine

/-! ## Section 5: Reaching the locking state and moving budget -/

theorem Decimal.isNegative_eq_false {d : Decimal} (h : 0 ≤ d.val) : d.isNegative = false := by
  rw [Bool.eq_false_iff]
  exact fun hn => absurd (isNegative_iff.1 hn) (not_lt.2 h)

/-- A draft of a type, in that type's direction, is sound when its amount is not negative. -/
theorem EntryDraft.validate_make (k : DimensionKey) (t : EntryType) {a : Decimal} (s : DocumentRef)
    (p : Date) (h : 0 ≤ a.val) : (EntryDraft.make k t a s p).validate = .ok () := by
  cases t <;> simp [EntryDraft.validate, EntryDraft.make, isNegative_eq_false h, EntryType.fixedDirection]

/-- A batch of sound drafts without reclass rows passes its checks. -/
theorem validateBatch_of_sound {ds : List EntryDraft} (hne : ds ≠ [])
    (hsound : ∀ d ∈ ds, d.validate = .ok ()) (hnr : ∀ d ∈ ds, d.entryType ≠ .reclass) :
    validateBatch ds = .ok () := by
  have hrc : ds.filter (·.entryType = .reclass) = [] :=
    List.filter_eq_nil_iff.2 fun d hd => by simpa using hnr d hd
  unfold validateBatch
  simp only [List.isEmpty_eq_false_iff.2 hne, Bool.false_eq_true, if_false, hrc]
  rw [(forIn_unit_ok fun d => ?_).2 fun d hd => ?_]
  · rfl
  · split
    · exact .inl rfl
    · exact .inr ⟨_, rfl⟩
  · rw [hsound d hd]
    rfl

/-- A reclass pair of a positive amount passes its checks: both halves are sound and balance. -/
theorem validateBatch_reclass {source target : DimensionKey} {amount : Decimal} {doc : DocumentRef}
    {postingDate : Date} (hpos : 0 < amount.val) :
    validateBatch [EntryDraft.reclassing source .out amount doc postingDate,
      EntryDraft.reclassing target .inbound amount doc postingDate] = .ok () := by
  have hneg : amount.isNegative = false := isNegative_eq_false hpos.le
  have hadd : Decimal.add Decimal.zero amount = .ok amount := by
    simp [Decimal.add, Decimal.combine, Decimal.zero, Decimal.isZero]
  unfold validateBatch
  simp [EntryDraft.reclassing, EntryDraft.validate, hneg, EntryType.fixedDirection, hadd,
    liftArith]
  have hsv : amount.sameValue amount = true := sameValue_iff.2 rfl
  simp only [bind, Except.bind, Functor.map, Except.map, hadd, Except.mapError, hsv]
  rfl


namespace Engine

/-- With the lock enabled, the document at the locking state and unlocked, and a slicing that
    gives slices, reaching the state reserves every slice in one checked append. -/
theorem reachPlan_eq_checked {e : Engine} {document : SourceDocument} {context : EventContext}
    {ps : List Position} {slices : List Slice} (hen : e.config.enableBudgetLock = true)
    (hstate : document.workflowState = e.config.lockOnState)
    (hps : positions (e.history document.docRef) = .ok ps) (hun : deriveState ps = .unlocked)
    (hslice : e.slicer.slice .document document.source document.lines document.allocation
      context.defaultFiscalPeriod = .ok slices) (hne : slices ≠ []) :
    e.reachPlan document context = .checked document.docRef (slices.map fun s =>
        EntryDraft.make s.key .reservation s.amount document.docRef document.postingDate)
      context.principal fun (entries, overruns) =>
        .applied { document := document.docRef,
                   status := if overruns.isEmpty then .locked else .overrunAllowed,
                   entries, overruns } := by
  simp [reachPlan, hen, hstate, hps, hun, hslice, hne]

/-- Reservations flow out by their slices' amounts. -/
theorem outflows_reservations (slices : List Slice) (doc : DocumentRef) (date : Date) :
    outflows (slices.map fun s => EntryDraft.make s.key .reservation s.amount doc date) =
      slices.map fun s => (s.key, s.amount.val) := by
  simp [outflows, EntryDraft.make_outflow, EntryType.fixedDirection]

/-- Reaching the locking state obeys the gate law in `e`. Whenever the lock is enabled, the
    document stands at the locking state and is unlocked, its slicing gives slices of amounts not
    below zero, none of their scopes is held, and every amount has room: the event fails naming
    exactly the scopes whose demand is above what they have available when there are any and
    the principal may not overrun; otherwise it reserves every slice, locked when no scope
    falls short and with the overrun allowed when some do. -/
def ReachGate (e : Engine) : Prop :=
  ∀ ⦃document : SourceDocument⦄ ⦃context : EventContext⦄ ⦃ps : List Position⦄ ⦃slices : List Slice⦄
    ⦃S : ℕ⦄ ⦃L : List (BudgetScope × ℚ × ℚ × ℚ)⦄,
    e.config.enableBudgetLock = true → document.workflowState = e.config.lockOnState →
    positions (e.history document.docRef) = .ok ps → deriveState ps = .unlocked →
    e.slicer.slice .document document.source document.lines document.allocation
      context.defaultFiscalPeriod = .ok slices → slices ≠ [] →
    (∀ s ∈ slices, 0 ≤ s.amount.val) → (∀ s ∈ slices, e.scopeOf s.key ∉ e.books.locks.held) →
    Room S (e.books.amounts ++ slices.map Slice.amount) →
    L = e.books.shortfallsFor e.config.controlByAccount (slices.map fun s => (s.key, s.amount.val)) →
    Gated L (!context.principal.hasRole e.config.overrunRole) document.docRef
      (slices.map fun s => EntryDraft.make s.key .reservation s.amount document.docRef document.postingDate)
      (fun (entries, overruns) => .applied { document := document.docRef,
                                             status := if L = [] then .locked else .overrunAllowed,
                                             entries, overruns })
      e (((onReachTargetState document context).run).run e).1
      (((onReachTargetState document context).run).run e).2

/-- With a cache that agrees with the live figures, reaching the locking state obeys the gate
    law. -/
theorem reach_gated {e : Engine} (hagree : e.CacheAgrees) : e.ReachGate := by
  intro document context ps slices S L hen hstate hps hun hslice hne hnonneg hfree hroom hL
  rw [run_onReachTargetState, reachPlan_eq_checked hen hstate hps hun hslice hne]
  have hvalid : validateBatch (slices.map fun s =>
      EntryDraft.make s.key .reservation s.amount document.docRef document.postingDate) = .ok () := by
    refine validateBatch_of_sound (by simpa using hne) (fun d hd => ?_) (fun d hd => ?_)
    · obtain ⟨s, hs, rfl⟩ := List.mem_map.1 hd
      exact EntryDraft.validate_make _ _ _ _ (hnonneg s hs)
    · obtain ⟨s, -, rfl⟩ := List.mem_map.1 hd
      simp
  have h := @checked_gated _ document.docRef _ context.principal (fun (entries, overruns) =>
      Outcome.applied { document := document.docRef,
                        status := if overruns.isEmpty then .locked else .overrunAllowed,
                        entries, overruns }) e S hagree (by simpa using hfree) hvalid
    (by simpa [List.map_map, Function.comp_def] using hroom)
  rw [outflows_reservations, ← hL] at h
  refine h.congr fun es sh hsh => ?_
  -- the overruns are none exactly when no scope falls short
  subst hsh
  simp [List.isEmpty_iff]

/-- Moving a positive amount between two keys appends the reclass pair in one checked append. -/
theorem reclassPlan_eq_checked {source target : DimensionKey} {amount : Decimal} {doc : DocumentRef}
    {postingDate : Date} {principal : Principal} (hpos : 0 < amount.val) (hne : source ≠ target) :
    reclassPlan source target amount doc postingDate principal =
      .checked doc [EntryDraft.reclassing source .out amount doc postingDate,
        EntryDraft.reclassing target .inbound amount doc postingDate] principal (·.1) := by
  have hle : ¬amount ≤ Decimal.zero := by
    rw [le_iff_val, val_zero]
    exact not_le.2 hpos
  simp [reclassPlan, hle, hne]

/-- The pair takes the amount out of the source and puts it into the target. -/
theorem outflows_reclass (source target : DimensionKey) (amount : Decimal) (doc : DocumentRef)
    (postingDate : Date) :
    outflows [EntryDraft.reclassing source .out amount doc postingDate,
      EntryDraft.reclassing target .inbound amount doc postingDate] =
      [(source, amount.val), (target, -amount.val)] := by
  simp [outflows, EntryDraft.outflow, EntryDraft.reclassing]

/-- Moving budget obeys the gate law in `e`. Whenever a positive amount moves between two
    different keys, neither of whose scopes is held, and every amount has room, the law holds
    over the pair's outflows: the amount out of the source and back into the target, so that
    in a scope holding both keys the two cancel. -/
def ReclassGate (e : Engine) : Prop :=
  ∀ ⦃source target : DimensionKey⦄ ⦃amount : Decimal⦄ ⦃doc : DocumentRef⦄ ⦃postingDate : Date⦄
    ⦃principal : Principal⦄ ⦃S : ℕ⦄ ⦃L : List (BudgetScope × ℚ × ℚ × ℚ)⦄,
    0 < amount.val → source ≠ target →
    e.scopeOf source ∉ e.books.locks.held ∧ e.scopeOf target ∉ e.books.locks.held →
    Room S (e.books.amounts ++ [amount, amount]) →
    L = e.books.shortfallsFor e.config.controlByAccount [(source, amount.val), (target, -amount.val)] →
    Gated L (!principal.hasRole e.config.overrunRole) doc
      [EntryDraft.reclassing source .out amount doc postingDate,
        EntryDraft.reclassing target .inbound amount doc postingDate] (·.1) e
      (((reclass source target amount doc postingDate principal).run).run e).1
      (((reclass source target amount doc postingDate principal).run).run e).2

/-- With a cache that agrees with the live figures, moving budget obeys the gate law. -/
theorem reclass_gated {e : Engine} (hagree : e.CacheAgrees) : e.ReclassGate := by
  intro source target amount doc postingDate principal S L hpos hne hfree hroom hL
  rw [run_reclass, reclassPlan_eq_checked hpos hne]
  have h := @checked_gated _ doc [EntryDraft.reclassing source .out amount doc postingDate,
      EntryDraft.reclassing target .inbound amount doc postingDate] principal (·.1) e S hagree
    (by simpa [EntryDraft.reclassing] using hfree) (validateBatch_reclass hpos)
    (by simpa [EntryDraft.reclassing] using hroom)
  rwa [outflows_reclass, ← hL] at h

end Engine

/-! ## Section 6: The gate along runs -/

theorem Decimal.val_cent : Decimal.cent.val = 1 / 100 := by
  rw [val_eq]
  norm_num [Decimal.cent]

namespace Engine

/-- In every state a run of requests reaches from an engine with an empty cache, reaching the
    locking state and moving budget obey the gate law. -/
theorem availability_gate {e₀ e : Engine} (hfresh : e₀.books.cache.slots = [])
    (hreach : ∃ cs, Request.runAll cs e₀ = e) : e.ReachGate ∧ e.ReclassGate := by
  obtain ⟨cs, rfl⟩ := hreach
  -- the cache agrees with the live figures all along the run
  have hagree := Request.runAll_cacheAgrees cs (cacheAgrees_of_empty hfresh)
  exact ⟨reach_gated hagree, reclass_gated hagree⟩

/-- The gate at two states. In a fresh engine, where no scope has any budget, reaching the
    locking state with one cent at one key is refused to a principal without the overrun role,
    naming that key's scope short by the cent. After a first claim of 300 is reserved against a
    budget of 1000, a second claim of 600 passes: it is locked with no overrun, and its rows are
    appended to the ledger. -/
theorem availability_gate_fresh :
    let travel : DimensionKey := ⟨"ACME", "FY2026", "CC-OPS", "6100-Travel", none, none⟩
    let claim₁ : SourceDocument :=
      { docRef := ⟨"Expense Claim", "EXP-1"⟩, company := some "ACME", costCenter := "CC-OPS",
        postingDate := ⟨2026, 3, 10⟩, workflowState := "Approved",
        lines := [⟨"6100-Travel", Decimal.ofNat 300⟩] }
    let claim₂ : SourceDocument :=
      { docRef := ⟨"Expense Claim", "EXP-2"⟩, company := some "ACME", costCenter := "CC-OPS",
        postingDate := ⟨2026, 3, 11⟩, workflowState := "Approved",
        lines := [⟨"6100-Travel", Decimal.ofNat 600⟩] }
    let e₀ : Engine :=
      { directory := [("CC-OPS", "ACME")],
        calendar := [⟨"FY2026", none, ⟨2026, 1, 1⟩, ⟨2026, 12, 31⟩⟩],
        books := { envelopes := EnvelopeBook.ofList [(travel, Decimal.ofNat 1000)] } }
    let e := Request.runAll [.event (.reachedTargetState claim₁ {})] e₀
    (({} : Engine).books.cache.slots = [] ∧ (∃ cs, Request.runAll cs {} = ({} : Engine)) ∧
      ({} : Engine).ReclassGate ∧
      ∃ sh, (((onReachTargetState
          { docRef := ⟨"Purchase Order", "PO-1"⟩, company := some "ACME", fiscalPeriod := some "FY2026",
            costCenter := "CC-OPS", postingDate := ⟨2026, 1, 1⟩, workflowState := "Approved",
            lines := [⟨"6100", Decimal.cent⟩] } {}).run).run {}).1 =
          .error (.insufficient (DocumentRef.toText ⟨"Purchase Order", "PO-1"⟩) sh) ∧
        sh.map Shortfall.vals =
          [(BudgetScope.ofKey ⟨"ACME", "FY2026", "CC-OPS", "6100", none, none⟩ true, 1 / 100, 0, 1 / 100)]) ∧
    (e₀.books.cache.slots = [] ∧ e.books.ledger.entries.length = 1 ∧
      ∃ es, (((onReachTargetState claim₂ {}).run).run e).1 =
          .ok (.applied { document := claim₂.docRef, status := .locked,
                          entries := es, overruns := [] }) ∧
        (((onReachTargetState claim₂ {}).run).run e).2.books.ledger.entries =
          e.books.ledger.entries ++ es) := by
  intro travel claim₁ claim₂ e₀ e
  refine ⟨?_, ?_⟩
  · -- the refusal in a fresh engine
    have hc := Decimal.val_cent
    obtain ⟨hreach, hreclass⟩ := @availability_gate {} {} rfl ⟨[], rfl⟩
    refine ⟨rfl, ⟨[], rfl⟩, hreclass, ?_⟩
    have hL : ({} : Engine).books.shortfallsFor true [(⟨"ACME", "FY2026", "CC-OPS", "6100", none, none⟩, cent.val)] =
        [(BudgetScope.ofKey ⟨"ACME", "FY2026", "CC-OPS", "6100", none, none⟩ true, 1 / 100, 0, 1 / 100)] := by
      simp [Books.shortfallsFor, LockTable.ordered, scopeDemand, Books.availableVal, scopeSumVal,
        Books.actualVal, Ledger.totalVal, Ledger.select, BudgetScope.contains_ofKey, List.eraseDups_cons, hc]
    have h := @hreach
      { docRef := ⟨"Purchase Order", "PO-1"⟩, company := some "ACME", fiscalPeriod := some "FY2026",
        costCenter := "CC-OPS", postingDate := ⟨2026, 1, 1⟩, workflowState := "Approved",
        lines := [⟨"6100", Decimal.cent⟩] } {} [] [⟨⟨"ACME", "FY2026", "CC-OPS", "6100", none, none⟩, Decimal.cent⟩] 2
      [(BudgetScope.ofKey ⟨"ACME", "FY2026", "CC-OPS", "6100", none, none⟩ true, 1 / 100, 0, 1 / 100)] rfl rfl
      (by simp [positions, Engine.history, Ledger.select]; rfl) rfl rfl (by simp) (by simp [hc]) (by simp)
      ⟨by decide, by simp [Books.amounts, Decimal.cent], by simp [Books.amounts, hc, mantissaLimit]; norm_num⟩ hL.symm
    exact (h.refused (by simp) rfl).1
  · -- the pass after a first reservation
    obtain ⟨hreach, -⟩ := @availability_gate e₀ e rfl ⟨_, rfl⟩
    -- the second claim has no history, so its positions are empty and it is unlocked
    have hhist : (e.history claim₂.docRef).isEmpty = true := by decide +kernel
    have hps : positions (e.history claim₂.docRef) = .ok [] := by
      rw [List.isEmpty_iff.1 hhist]
      simp [positions]
      rfl
    -- its slices, evaluated by the kernel: one positive slice with room, and no shortfall
    let sliced := e.slicer.slice .document claim₂.source claim₂.lines claim₂.allocation
      ({} : EventContext).defaultFiscalPeriod
    have hne : (sliced.toOption.getD []).isEmpty = false := by decide +kernel
    have hpos : ∀ s ∈ sliced.toOption.getD [], 0 ≤ s.amount.val := by decide +kernel
    have hfree : ∀ s ∈ sliced.toOption.getD [], e.scopeOf s.key ∉ e.books.locks.held := by
      decide +kernel
    have hroom : Room 2 (e.books.amounts ++ (sliced.toOption.getD []).map Slice.amount) :=
      ⟨by decide, by decide +kernel, by decide +kernel⟩
    have hL : e.books.shortfallsFor e.config.controlByAccount
        ((sliced.toOption.getD []).map fun s => (s.key, s.amount.val)) = [] := by decide +kernel
    cases hsl : sliced with
    | error err =>
      rw [hsl] at hne
      cases hne
    | ok slices =>
      simp only [hsl, Except.toOption, Option.getD_some] at hne hpos hfree hroom hL
      have hgate := hreach (by decide +kernel) (by decide +kernel) hps rfl hsl
        (fun h => by simp [h] at hne) hpos hfree hroom hL.symm
      obtain ⟨es, sh, hr, hsh, happ⟩ := hgate.passed (.inl rfl)
      rw [List.map_eq_nil_iff] at hsh
      subst hsh
      exact ⟨by decide +kernel, by decide +kernel, es, hr, Ledger.append_entries happ⟩

end Engine

end Encumbrance
