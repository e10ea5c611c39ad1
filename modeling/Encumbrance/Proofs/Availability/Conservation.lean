import Mathlib
import Encumbrance.Proofs.Availability.Formula
import Encumbrance.Proofs.Availability.Overshoot
import Encumbrance.Proofs.Control.Applied

/-! # Conservation of budget

    Budget enters the books through supplements only; a reclass moves it from one key to
    another. At one control setting the scopes of keys partition the keys: each key lies in the
    scope of its own key and in no other such scope. Two facts follow.

    * Over any set of these scopes that holds the scope of every row, the allocation
      adjustments add up to the supplements of the whole ledger. Each supplement and reclass row
      counts in the one scope of its key, and the reclass rows cancel, since every batch that
      wrote some balanced them (`Ledger.Built.adjustments_sum`).
    * An applied reclass lowers the allocated figure of every scope that holds its source by its
      amount and raises that of every scope that holds its target by it, so at one control setting
      the source's scope loses the amount, the target's gains it, the two cancel when the scopes
      are one, and every other scope keeps its figure (`Engine.allocated_after_reclass`).
-/

namespace Encumbrance

open Decimal

/-! ## Section 1: The ledgers that runs reach -/

namespace Request

theorem step_built (c : Request) {e : Engine} (h : e.books.ledger.Built) :
    (c.step e).books.ledger.Built := by
  rcases step_ledger c e with hsame | ⟨ds, es, -, happ⟩
  · exact hsame ▸ h
  · exact .append h happ

theorem runAll_built : ∀ (cs : List Request) {e : Engine}, e.books.ledger.Built →
    (runAll cs e).books.ledger.Built
  | [], _, h => h
  | c :: cs, _, h => runAll_built cs (c.step_built h)

end Request

/-! ## Section 2: Sums over a partition of the keys -/

namespace Ledger

/-- What the supplements of the whole ledger add up to, exactly. -/
def suppliedVal (l : Ledger) : ℚ :=
  ((l.entries.filter (·.entryType == .supplement)).map fun x => x.amount.val).sum

end Ledger

theorem sum_finset_list_comm {α : Type} (P : Finset BudgetScope) (xs : List α)
    (g : BudgetScope → α → ℚ) :
    ∑ s ∈ P, (xs.map (g s)).sum = (xs.map fun x => ∑ s ∈ P, g s x).sum := by
  induction xs with
  | nil => simp
  | cons x xs ih => simp only [List.map_cons, List.sum_cons, Finset.sum_add_distrib, ih]

namespace BudgetScope

variable {byAccount : Bool} {P : Finset BudgetScope}

/-- A key lies in one scope of a partition only: over a set of the partition's scopes that
    holds the key's own, what the key brings to the scopes holding it counts once. -/
theorem sum_contains (hP : ∀ s ∈ P, ∃ k, s = ofKey k byAccount) {k : DimensionKey}
    (hk : ofKey k byAccount ∈ P) (q : ℚ) :
    ∑ s ∈ P, (if s.contains k then q else 0) = q := by
  rw [Finset.sum_eq_single_of_mem _ hk fun s hs hne => ?_, if_pos (contains_ofKey k byAccount)]
  obtain ⟨k', rfl⟩ := hP s hs
  exact if_neg fun hc => hne (contains_ofKey_iff.1 hc).symm

end BudgetScope

/-! ## Section 3: The allocation adjustments add up to the supplements -/

namespace Ledger

variable {l : Ledger} {byAccount : Bool} {P : Finset BudgetScope}

/-- Over scopes of a partition that hold every row's key, the allocation adjustments add up to
    what the rows of the allocation types bring, each once. -/
theorem sum_adjustments_eq_rows (hP : ∀ s ∈ P, ∃ k, s = BudgetScope.ofKey k byAccount)
    (hcover : ∀ x ∈ l.entries, BudgetScope.ofKey x.key byAccount ∈ P) :
    ∑ s ∈ P, l.totalVal s allocationTypes (fun x => -x.outflow) =
      (l.entries.map fun x => if x.entryType ∈ allocationTypes then (-x.outflow).val else 0).sum := by
  simp only [totalVal_eq_shares]
  rw [sum_finset_list_comm]
  refine congrArg List.sum (List.map_congr_left fun x hx => ?_)
  rw [← BudgetScope.sum_contains hP (hcover x hx)
    (if x.entryType ∈ allocationTypes then (-x.outflow).val else 0)]
  refine Finset.sum_congr rfl fun s _ => ?_
  by_cases hs : s.contains x.key <;> simp [LedgerQuery.admits, allocationTypes, hs]

/-- On rows that go the ways their types demand, the rows of the allocation types bring the
    supplements, and the reclass rows their inflow, the opposite of their outflow. -/
theorem sum_allocation_rows (h : ∀ x ∈ l.entries, x.Directed) :
    (l.entries.map fun x => if x.entryType ∈ allocationTypes then (-x.outflow).val else 0).sum =
      l.suppliedVal - reclassFlow (l.entries.map Entry.draft) := by
  have hsupp : l.suppliedVal =
      (l.entries.map fun x => if x.entryType = .supplement then x.amount.val else 0).sum :=
    sum_filter_eq _ _ _ _ fun x _ => by by_cases ht : x.entryType = .supplement <;> simp [ht]
  have hflow : reclassFlow (l.entries.map Entry.draft) =
      (l.entries.map fun x => if x.entryType = .reclass then x.outflow.val else 0).sum := by
    unfold reclassFlow
    rw [List.filter_map, List.map_map]
    exact sum_filter_eq _ _ _ _ fun x _ => by by_cases ht : x.entryType = .reclass <;> simp [ht]
  rw [hsupp, hflow, ← sum_map_sub_distrib]
  refine congrArg List.sum (List.map_congr_left fun x hx => ?_)
  cases ht : x.entryType <;> simp [allocationTypes, ht, (h x hx).outflow_val]

/-- **Conservation.** On a ledger that appends built, with room for exact sums, the allocation
    adjustments of the scopes of a partition that hold every row's key add up to the supplements:
    the reclass rows move budget between scopes and create none. -/
theorem Built.adjustments_sum (hbuilt : l.Built) {S : ℕ} (hroom : Room S (l.entries.map Entry.amount))
    (hP : ∀ s ∈ P, ∃ k, s = BudgetScope.ofKey k byAccount)
    (hcover : ∀ x ∈ l.entries, BudgetScope.ofKey x.key byAccount ∈ P) :
    ∑ s ∈ P, l.totalVal s allocationTypes (fun x => -x.outflow) = l.suppliedVal := by
  rw [sum_adjustments_eq_rows hP hcover, sum_allocation_rows hbuilt.directed,
    hbuilt.reclass_balanced hroom, sub_zero]

/-- A scope of the partition that holds no row's key has no adjustment. -/
theorem totalVal_uncovered (hcover : ∀ x ∈ l.entries, BudgetScope.ofKey x.key byAccount ∈ P)
    {k : DimensionKey} (hk : BudgetScope.ofKey k byAccount ∉ P) (types : List EntryType)
    (w : Entry → Decimal) : l.totalVal (BudgetScope.ofKey k byAccount) types w = 0 := by
  rw [totalVal_eq_shares]
  refine List.sum_eq_zero fun q hq => ?_
  obtain ⟨x, hx, rfl⟩ := List.mem_map.1 hq
  -- a row in the scope would have the scope as its own
  have hout : (BudgetScope.ofKey k byAccount).contains x.key = false := by
    by_contra hc
    rw [Bool.not_eq_false, BudgetScope.contains_ofKey_iff] at hc
    exact hk (hc ▸ hcover x hx)
  simp [LedgerQuery.admits, hout]

end Ledger

/-! ## Section 4: A reclass moves allocation between two scopes -/

namespace Ledger

/-- The rows a reclass appends adjust the allocation of a scope by its amount, out of the scope
    if it holds the source and into it if it holds the target. -/
theorem totalVal_reclass {l l' : Ledger} {source target : DimensionKey} {amount : Decimal}
    {doc : DocumentRef} {postingDate : Date} {es : List Entry}
    (happ : l.append [EntryDraft.reclassing source .out amount doc postingDate,
      EntryDraft.reclassing target .inbound amount doc postingDate] = .ok (es, l'))
    (s : BudgetScope) :
    l'.totalVal s allocationTypes (fun x => -x.outflow) =
      l.totalVal s allocationTypes (fun x => -x.outflow) - (if s.contains source then amount.val else 0) +
        (if s.contains target then amount.val else 0) := by
  rw [totalVal_append happ]
  -- what the written rows add depends only on their drafts
  have hrows : ((es.filter ({ scope := some s, types := allocationTypes } : LedgerQuery).admits).map
      fun x => (-x.outflow).val).sum =
      ((es.map Entry.draft).map fun d =>
        if s.contains d.key && d.entryType ∈ allocationTypes then (-d.outflow).val else 0).sum := by
    rw [List.map_map]
    exact sum_filter_eq _ _ _ _ fun x _ => by
      simp only [LedgerQuery.admits, allocationTypes]
      exact if_congr (by simp) rfl rfl
  rw [hrows, append_drafts happ]
  -- the source row takes the amount out of the scope, the target row puts it back in
  by_cases hsrc : s.contains source <;> by_cases htgt : s.contains target <;>
    simp [EntryDraft.reclassing, EntryDraft.outflow, allocationTypes, hsrc, htgt]
  ring

end Ledger

namespace Books

/-- With room for the books' amounts, the allocated read of a scope succeeds, leaves the books
    as they were and reports the envelope plus the allocation adjustment, exactly. -/
theorem run_allocated_exact {b : Books} {S : ℕ} (hroom : Room S b.amounts) (s : BudgetScope) :
    ∃ a : Decimal, ((allocated s).run).run b = (.ok a, b) ∧
      a.val = scopeSumVal b.envelopes.entries s + b.ledger.totalVal s allocationTypes (fun x => -x.outflow) := by
  obtain ⟨env, adj, u, r, a, -, -, henv, hadj, hu, hr, ha, -, -, hval, -⟩ :=
    available_exact hroom.append_zero s
  obtain ⟨henvv, hadjv, -, -⟩ := figure_vals hroom s henv hadj hu hr
  exact ⟨a, run_allocated henv hadj ha, by rw [hval, henvv, hadjv]⟩

end Books

namespace Engine

variable {source target : DimensionKey} {amount : Decimal} {doc : DocumentRef} {postingDate : Date}
  {principal : Principal} {e e' : Engine} {es : List Entry}

/-- An applied reclass kept the frame and appended its pair of rows. -/
theorem reclass_applied
    (h : ((reclass source target amount doc postingDate principal).run).run e = (.ok es, e')) :
    Frame e e' ∧ e.books.ledger.append [EntryDraft.reclassing source .out amount doc postingDate,
      EntryDraft.reclassing target .inbound amount doc postingDate] = .ok (es, e'.books.ledger) := by
  rw [run_reclass] at h
  unfold reclassPlan at h
  -- the two guards stop with an error, so only the append can have answered
  split at h
  · rw [Plan.run_exec_stop] at h
    cases h
  split at h
  · rw [Plan.run_exec_stop] at h
    cases h
  rw [Plan.run_exec_checked] at h
  obtain ⟨es', sh, rfl, happ, hframe⟩ := (appendStep_checked _ _ _).run_ok h
  exact ⟨hframe, happ⟩

/-- An applied reclass, with room for exact sums afterwards, moves its amount out of the
    allocated figure of every scope that holds the source and into that of every scope that holds
    the target. -/
theorem allocated_after_reclass
    (h : ((reclass source target amount doc postingDate principal).run).run e = (.ok es, e'))
    {S : ℕ} (hroom : Room S e'.books.amounts) (s : BudgetScope) :
    ∃ before after : Decimal, ((Books.allocated s).run).run e.books = (.ok before, e.books) ∧
      ((Books.allocated s).run).run e'.books = (.ok after, e'.books) ∧
      after.val = before.val - (if s.contains source then amount.val else 0) +
        (if s.contains target then amount.val else 0) := by
  obtain ⟨hframe, happ⟩ := reclass_applied h
  -- the books before hold fewer amounts than those after
  have hroom₀ : Room S e.books.amounts :=
    (hroom.perm (Books.amounts_append_perm hframe.envelopes hframe.posted happ)).sublist
      (List.sublist_append_left _ _)
  obtain ⟨before, hb, hbv⟩ := Books.run_allocated_exact hroom₀ s
  obtain ⟨after, ha, hav⟩ := Books.run_allocated_exact hroom s
  refine ⟨before, after, hb, ha, ?_⟩
  rw [hav, hbv, hframe.envelopes, Ledger.totalVal_reclass happ]
  ring

/-! ## Section 5: Conservation along runs -/

/-- **Budget conservation.** Fix the control setting, whose scopes of keys partition the keys.
    Along any run of requests from an engine whose ledger appends built, with room for exact
    sums at its end, every scope's allocation adjustment is computed without error; the
    partition's scopes that hold no row have none, and over any set of the partition's scopes
    holding every row's key the adjustments add up to the supplements of the ledger. And every
    applied reclass, with room for exact sums after it, lowers the allocated figure of the
    source's scope by its amount, raises that of the target's scope by it (the two cancel when
    the scopes are one), and leaves every other scope of the partition as it was. -/
theorem budget_conserved (byAccount : Bool) :
    (∀ (e₀ : Engine) (cs : List Request) (S : ℕ) (P : Finset BudgetScope),
      e₀.books.ledger.Built → Room S (Request.runAll cs e₀).books.amounts →
      (∀ s ∈ P, ∃ k, s = BudgetScope.ofKey k byAccount) →
      (∀ x ∈ (Request.runAll cs e₀).books.ledger.entries, BudgetScope.ofKey x.key byAccount ∈ P) →
      ∃ adj : BudgetScope → Decimal,
        (∀ s, (Request.runAll cs e₀).books.ledger.allocationAdjustment s = .ok (adj s)) ∧
        (∀ k, BudgetScope.ofKey k byAccount ∉ P → (adj (BudgetScope.ofKey k byAccount)).val = 0) ∧
        ∑ s ∈ P, (adj s).val = (Request.runAll cs e₀).books.ledger.suppliedVal) ∧
    (∀ (e e' : Engine) (source target : DimensionKey) (amount : Decimal) (doc : DocumentRef)
        (postingDate : Date) (principal : Principal) (es : List Entry) (S : ℕ),
      ((reclass source target amount doc postingDate principal).run).run e = (.ok es, e') →
      Room S e'.books.amounts → ∀ k : DimensionKey,
        ∃ before after : Decimal,
          ((Books.allocated (BudgetScope.ofKey k byAccount)).run).run e.books = (.ok before, e.books) ∧
          ((Books.allocated (BudgetScope.ofKey k byAccount)).run).run e'.books =
            (.ok after, e'.books) ∧
          after.val = before.val -
            (if BudgetScope.ofKey source byAccount = BudgetScope.ofKey k byAccount then amount.val
              else 0) +
            (if BudgetScope.ofKey target byAccount = BudgetScope.ofKey k byAccount then amount.val
              else 0)) := by
  refine ⟨fun e₀ cs S P h₀ hroom hP hcover => ?_,
    fun e e' source target amount doc postingDate principal es S h hroom k => ?_⟩
  · have hL := hroom.sublist (Books.ledger_sublist_amounts _)
    -- with room, every scope's adjustment is its exact sum
    have hexact : ∀ s, ∃ d, (Request.runAll cs e₀).books.ledger.allocationAdjustment s = .ok d ∧
        d.val = (Request.runAll cs e₀).books.ledger.totalVal s allocationTypes fun x => -x.outflow := by
      intro s
      obtain ⟨d, hd, hdv, -⟩ := Ledger.total_exact hL s allocationTypes (fun x => -x.outflow)
        (fun x => by simp [Entry.abs_outflow]) (fun x => Entry.outflow_scale x)
      exact ⟨d, hd, hdv⟩
    choose adj hadj hval using hexact
    refine ⟨adj, hadj, fun k hk => ?_, ?_⟩
    · rw [hval]
      exact Ledger.totalVal_uncovered hcover hk _ _
    · simp only [hval]
      exact (Request.runAll_built cs h₀).adjustments_sum hL hP hcover
  · -- a key lies in the scope of another key exactly when the two scopes are one
    obtain ⟨before, after, hb, ha, hval⟩ :=
      allocated_after_reclass h hroom (BudgetScope.ofKey k byAccount)
    refine ⟨before, after, hb, ha, ?_⟩
    simpa only [BudgetScope.contains_ofKey_iff] using hval

/-- A travel envelope of 1000, and a principal who may overrun moving 300 of it to meals: the
    move is applied, the travel scope then has 300 less allocated, and the adjustments of the two
    scopes add up to nothing, since nothing was supplied. -/
theorem travel_to_meals_conserved :
    let travel : DimensionKey := ⟨"ACME", "FY2026", "CC-OPS", "6100-Travel", none, none⟩
    let meals : DimensionKey := ⟨"ACME", "FY2026", "CC-OPS", "6200-Meals", none, none⟩
    let e₀ : Engine := { books := { envelopes := EnvelopeBook.ofList [(travel, Decimal.ofNat 1000)] } }
    let move := Request.reclass travel meals (Decimal.ofNat 300) ⟨"Budget Transfer", "BT-1"⟩
      ⟨2026, 3, 10⟩ { roles := ["Budget Manager"] }
    let e' := Request.runAll [move] e₀
    (∃ es, ((reclass travel meals (Decimal.ofNat 300) ⟨"Budget Transfer", "BT-1"⟩ ⟨2026, 3, 10⟩
        { roles := ["Budget Manager"] }).run).run e₀ = (.ok es, e')) ∧
      (∃ adj : BudgetScope → Decimal, (∀ s, e'.books.ledger.allocationAdjustment s = .ok (adj s)) ∧
        ∑ s ∈ {BudgetScope.ofKey travel true, BudgetScope.ofKey meals true}, (adj s).val = 0) ∧
      ∃ before after : Decimal,
        ((Books.allocated (BudgetScope.ofKey travel true)).run).run e₀.books = (.ok before, e₀.books) ∧
        ((Books.allocated (BudgetScope.ofKey travel true)).run).run e'.books = (.ok after, e'.books) ∧
        after.val = before.val - 300 := by
  intro travel meals e₀ move e'
  have hroom₀ : Room 0 (e₀.books.amounts ++ [Decimal.ofNat 300, Decimal.ofNat 300]) :=
    ⟨by decide, by decide +kernel, by decide +kernel⟩
  have h300 : (Decimal.ofNat 300).val = 300 := by decide +kernel
  -- the principal may overrun, so the gate lets the move through
  have hgate : e₀.ReclassGate := reclass_gated (cacheAgrees_of_empty rfl)
  obtain ⟨es, sh, hr, -, -⟩ := (@hgate travel meals (Decimal.ofNat 300) ⟨"Budget Transfer", "BT-1"⟩
    ⟨2026, 3, 10⟩ { roles := ["Budget Manager"] } 0 _ (by rw [h300]; norm_num) (by decide)
    (by simp [e₀]) hroom₀ rfl).passed (.inr (by decide))
  have hrun : ((reclass travel meals (Decimal.ofNat 300) ⟨"Budget Transfer", "BT-1"⟩ ⟨2026, 3, 10⟩
      { roles := ["Budget Manager"] }).run).run e₀ = (.ok es, e') := by
    refine Prod.ext hr ?_
    simp only [e', move, Request.runAll, List.foldl, Request.step, Request.run, Plan.run_map_state]
  obtain ⟨hframe, happ⟩ := reclass_applied hrun
  have hroom : Room 0 e'.books.amounts :=
    hroom₀.perm (Books.amounts_append_perm hframe.envelopes hframe.posted happ).symm
  -- the ledger holds the pair alone: a row out of travel and a row into meals
  have hrows : ∀ x ∈ e'.books.ledger.entries, x.draft = EntryDraft.reclassing travel .out
      (Decimal.ofNat 300) ⟨"Budget Transfer", "BT-1"⟩ ⟨2026, 3, 10⟩ ∨
      x.draft = EntryDraft.reclassing meals .inbound (Decimal.ofNat 300) ⟨"Budget Transfer", "BT-1"⟩
        ⟨2026, 3, 10⟩ := by
    intro x hx
    rw [Ledger.append_entries happ] at hx
    have hd := Ledger.append_drafts happ ▸ List.mem_map_of_mem (f := Entry.draft)
      ((List.mem_append.1 hx).resolve_left (by simp [e₀]))
    simpa using hd
  have hkeys : ∀ x ∈ e'.books.ledger.entries, x.key = travel ∨ x.key = meals := fun x hx =>
    (hrows x hx).imp (fun h => by simpa [EntryDraft.reclassing] using congrArg EntryDraft.key h)
      (fun h => by simpa [EntryDraft.reclassing] using congrArg EntryDraft.key h)
  have hnone : e'.books.ledger.suppliedVal = 0 := by
    unfold Ledger.suppliedVal
    rw [List.filter_eq_nil_iff.2 fun x hx => ?_, List.map_nil, List.sum_nil]
    have htype : x.entryType = .reclass := by
      rcases hrows x hx with h | h <;> simpa [EntryDraft.reclassing] using congrArg EntryDraft.entryType h
    simp [htype]
  obtain ⟨adj, hadj, -, hsum⟩ := (budget_conserved true).1 e₀ [move] 0
    {BudgetScope.ofKey travel true, BudgetScope.ofKey meals true} Ledger.Built.empty hroom
    (fun s hs => by
      rcases Finset.mem_insert.1 hs with rfl | hs
      · exact ⟨travel, rfl⟩
      · exact ⟨meals, Finset.mem_singleton.1 hs⟩)
    (fun x hx => by rcases hkeys x hx with h | h <;> simp [h])
  obtain ⟨before, after, hb, ha, hval⟩ := (budget_conserved true).2 e₀ e' travel meals
    (Decimal.ofNat 300) ⟨"Budget Transfer", "BT-1"⟩ ⟨2026, 3, 10⟩ { roles := ["Budget Manager"] } es 0
    hrun hroom travel
  refine ⟨⟨es, hrun⟩, ⟨adj, hadj, hsum.trans hnone⟩, before, after, hb, ha, ?_⟩
  rw [hval, h300, if_pos rfl, if_neg (by decide)]
  ring

end Engine

end Encumbrance
