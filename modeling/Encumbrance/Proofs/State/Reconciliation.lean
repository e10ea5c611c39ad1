import Mathlib
import Encumbrance.Proofs.Availability.Figures
import Encumbrance.Proofs.State.Status

/-! # Document summaries reconcile with scope totals

    Two paths report what the ledger holds back and what it has spent. A document's summary
    gives its positions, key by key: the reserved and consumed sums of the document's own rows.
    A scope's totals sum the ledger's rows at the keys the scope contains. The two group the
    same rows differently, by document and then by key, or by the scope and the row's type.

    With room for exact sums they always agree: a scope's reserved total is the sum, over every
    document that has rows and every position of its summary at a key of the scope, of the
    position's reserved amount, and its consumed total is the sum of the consumed amounts
    (`Engine.summaries_reconcile`). No history is needed for it, only the room: the agreement
    holds of every ledger, and so of every state a run reaches.

    The regrouping is one fact about sums (`sum_map_eq_sum_groups`), used twice: the scope's
    rows are grouped by document (`Ledger.totalVal_eq_sum_documents`), and a document's rows of
    the scope by key (`PositionsOf.sum_in_scope`).
-/

namespace Encumbrance

/-! ## Section 1: Regrouping a sum -/

/-- A sum is the sum of its groups' sums, over any list of distinct groups that holds the group
    of every term. -/
theorem sum_map_eq_sum_groups {α G : Type} [DecidableEq G] (group : α → G) (w : α → ℚ) :
    ∀ (gs : List G) (L : List α), gs.Nodup → (∀ x ∈ L, group x ∈ gs) →
      (L.map w).sum = (gs.map fun g => ((L.filter fun x => group x = g).map w).sum).sum
  | [], L, _, hcov => by
    rw [List.eq_nil_iff_forall_not_mem.2 fun x hx => List.not_mem_nil (hcov x hx)]
    simp
  | g :: gs, L, hnd, hcov => by
    obtain ⟨hg, hnd'⟩ := List.nodup_cons.1 hnd
    -- the terms outside the first group are grouped by the other groups
    have hrest := sum_map_eq_sum_groups group w gs (L.filter fun x => ¬group x = g) hnd'
      fun x hx => by
        obtain ⟨hxL, hxg⟩ := List.mem_filter.1 hx
        simpa [of_decide_eq_true hxg] using hcov x hxL
    -- and within another group, leaving out the first changes nothing
    have hsame : (gs.map fun g' =>
        (((L.filter fun x => ¬group x = g).filter fun x => group x = g').map w).sum) =
        gs.map fun g' => ((L.filter fun x => group x = g').map w).sum := by
      refine List.map_congr_left fun g' hg' => ?_
      have hne : g' ≠ g := fun h => hg (h ▸ hg')
      rw [List.filter_filter]
      congr 2
      refine List.filter_congr fun x _ => ?_
      by_cases hx : group x = g'
      · simp [hx, hne]
      · simp [hx]
    rw [List.map_cons, List.sum_cons, ← List.sum_map_filter_add_sum_map_filter_not
      (fun x => group x = g) w L, hrest, hsame]

/-! ## Section 2: One document's positions in a scope -/

/-- For either sum: when each position holds the sum of the rows of its key of some types, the
    positions at keys of a scope hold together the rows of the scope's keys of those types. -/
theorem PositionsOf.sum_in_scope {S : ℕ} {xs : List Entry} {ps : List Position}
    (h : PositionsOf S xs ps) (s : BudgetScope) {types : List EntryType} {w : Entry → ℚ}
    {amt : Position → Decimal}
    (hamt : ∀ p ∈ ps, (amt p).val =
      ((xs.filter fun x => x.key = p.key && types.contains x.entryType).map w).sum) :
    ((ps.filter fun p => s.contains p.key).map fun p => (amt p).val).sum =
      ((xs.filter fun x => s.contains x.key && types.contains x.entryType).map w).sum := by
  have hnd : ((ps.filter fun p => s.contains p.key).map (·.key)).Nodup :=
    h.nodup.sublist (List.filter_sublist.map _)
  -- every row of the scope has its key's position among those of the scope
  have hcov : ∀ x ∈ xs.filter (fun x => s.contains x.key && types.contains x.entryType),
      x.key ∈ (ps.filter fun p => s.contains p.key).map (·.key) := by
    intro x hx
    obtain ⟨hxs, hadm⟩ := List.mem_filter.1 hx
    obtain ⟨p, hp, hpk⟩ := List.mem_map.1 ((h.keys x.key).2 ⟨x, hxs, rfl⟩)
    refine List.mem_map.2 ⟨p, List.mem_filter.2 ⟨hp, ?_⟩, hpk⟩
    rw [hpk]
    exact (Bool.and_eq_true _ _ ▸ hadm).1
  rw [sum_map_eq_sum_groups Entry.key w _ _ hnd hcov, List.map_map]
  congr 1
  refine List.map_congr_left fun p hp => ?_
  obtain ⟨hp, hps⟩ := List.mem_filter.1 hp
  rw [Function.comp_apply, hamt p hp, List.filter_filter]
  congr 2
  refine List.filter_congr fun x _ => ?_
  -- a row of the position's key is in the scope because the key is
  by_cases hx : x.key = p.key
  · simp [hx, hps]
  · simp [hx]

/-! ## Section 3: A scope's rows by document -/

namespace Ledger

/-- The documents that are the source of some row, each once. -/
def documents (l : Ledger) : List DocumentRef := (l.entries.map (·.source)).dedup

theorem source_mem_documents {l : Ledger} {x : Entry} (hx : x ∈ l.entries) :
    x.source ∈ l.documents :=
  List.mem_dedup.2 (List.mem_map_of_mem hx)

/-- A scope's total over some types, grouped by document: each group is the document's rows at
    keys of the scope of those types. -/
theorem totalVal_eq_sum_documents (l : Ledger) (s : BudgetScope) {types : List EntryType}
    (hne : types ≠ []) (weight : Entry → Decimal) :
    l.totalVal s types weight = (l.documents.map fun D =>
      (((l.select { source := some D }).filter fun x => s.contains x.key &&
        types.contains x.entryType).map fun x => (weight x).val).sum).sum := by
  have hisEmpty : types.isEmpty = false := List.isEmpty_eq_false_iff.2 hne
  unfold totalVal
  rw [sum_map_eq_sum_groups Entry.source _ _ (l.select { scope := some s, types })
    (List.nodup_dedup _) fun x hx => source_mem_documents (List.mem_of_mem_filter hx)]
  refine congrArg List.sum (List.map_congr_left fun D _ => ?_)
  -- the scope's rows of one document are the document's rows of the scope
  simp only [select, List.filter_filter]
  congr 2
  refine List.filter_congr fun x _ => ?_
  by_cases hxD : x.source = D
  · simp [LedgerQuery.admits, hxD, hisEmpty, Bool.and_comm]
  · simp [LedgerQuery.admits, hxD, Ne.symm hxD]

end Ledger

/-! ## Section 4: The summaries of every document -/

namespace DocumentSummary

/-- What a summary reports reserved at the keys of a scope. -/
def reservedIn (s : BudgetScope) (sm : DocumentSummary) : ℚ :=
  ((sm.positions.filter fun p => s.contains p.key).map fun p => p.reserved.val).sum

/-- What a summary reports consumed at the keys of a scope. -/
def consumedIn (s : BudgetScope) (sm : DocumentSummary) : ℚ :=
  ((sm.positions.filter fun p => s.contains p.key).map fun p => p.consumed.val).sum

end DocumentSummary

/-- For either sum: a scope's total over some types is what the documents' positions hold at
    the scope's keys, when each position holds its document's rows of its key of those types. -/
theorem Ledger.totalVal_eq_sum_positions {S : ℕ} (l : Ledger) (s : BudgetScope)
    {types : List EntryType} (hne : types ≠ []) (weight : Entry → Decimal)
    {amt : Position → Decimal} {sums : List DocumentSummary}
    (hdocs : sums.map (·.document) = l.documents)
    (hall : ∀ sm ∈ sums, PositionsOf S (l.select { source := some sm.document }) sm.positions)
    (hamt : ∀ sm ∈ sums, ∀ p ∈ sm.positions, (amt p).val =
      (((l.select { source := some sm.document }).filter fun x => x.key = p.key &&
        types.contains x.entryType).map fun x => (weight x).val).sum) :
    l.totalVal s types weight = (sums.map fun sm =>
      ((sm.positions.filter fun p => s.contains p.key).map fun p => (amt p).val).sum).sum := by
  rw [l.totalVal_eq_sum_documents s hne weight, ← hdocs, List.map_map]
  refine congrArg List.sum (List.map_congr_left fun sm hsm => ?_)
  exact ((hall sm hsm).sum_in_scope s (hamt sm hsm)).symm

namespace Engine

/-- With room, the summaries of any documents are computed, leave the engine as it was, and
    each holds the positions of its document's history. -/
theorem run_mapM_summary {S : ℕ} {e : Engine}
    (hroom : Decimal.Room S (e.books.ledger.entries.map Entry.amount)) :
    ∀ docs : List DocumentRef, ∃ sums, ((docs.mapM summary).run).run e = (.ok sums, e) ∧
      sums.map (·.document) = docs ∧ ∀ sm ∈ sums, PositionsOf S (e.history sm.document) sm.positions
  | [] => ⟨[], rfl, rfl, fun _ h => absurd h List.not_mem_nil⟩
  | D :: docs => by
    have hroomD : Decimal.Room S ((e.history D).map Entry.amount) :=
      hroom.sublist (List.filter_sublist.map _)
    obtain ⟨ps, hps, hpos⟩ := positions_exact hroomD
    obtain ⟨sums, hrun, hdocs, hall⟩ := run_mapM_summary hroom docs
    refine ⟨⟨D, deriveState ps, ps, (e.history D).length⟩ :: sums, ?_,
      by rw [List.map_cons, hdocs], ?_⟩
    · simp only [List.mapM_cons, run_bind, run_summary hps, hrun, run_pure]
    · intro sm hsm
      rcases List.mem_cons.1 hsm with rfl | hsm
      · exact hpos
      · exact hall sm hsm

/-- **Summaries reconcile with scope totals.** With room for exact sums, the summaries of the
    documents that have rows are computed and change nothing, and for every scope the reserved
    total is what they report reserved at the scope's keys, and the consumed total what they
    report consumed there. -/
theorem summaries_reconcile {S : ℕ} (e : Engine)
    (hroom : Decimal.Room S (e.books.ledger.entries.map Entry.amount)) :
    ∃ sums, ((e.books.ledger.documents.mapM summary).run).run e = (.ok sums, e) ∧
      sums.map (·.document) = e.books.ledger.documents ∧
      ∀ s : BudgetScope,
        (∃ r, e.books.ledger.reservedTotal s = .ok r ∧ r.val = (sums.map (·.reservedIn s)).sum) ∧
        ∃ c, e.books.ledger.consumedTotal s = .ok c ∧ c.val = (sums.map (·.consumedIn s)).sum := by
  obtain ⟨sums, hrun, hdocs, hall⟩ := run_mapM_summary hroom e.books.ledger.documents
  refine ⟨sums, hrun, hdocs, fun s => ⟨?_, ?_⟩⟩
  · -- a position's reserved amount is its document's reservations and releases of its key
    obtain ⟨r, hr, hrv, -⟩ := e.books.ledger.total_exact hroom s reservedTypes Entry.outflow
      Entry.abs_outflow Entry.outflow_scale
    refine ⟨r, hr, hrv.trans ?_⟩
    exact e.books.ledger.totalVal_eq_sum_positions s (by simp [reservedTypes]) _ hdocs hall
      fun sm hsm p hp => ((hall sm hsm).reserved p hp).trans (reservedAt_eq_sum_filter _ _)
  · -- and its consumed amount the inflow of the document's consumptions and reversals
    obtain ⟨c, hc, hcv, -⟩ := e.books.ledger.total_exact hroom s consumedTypes (fun x => -x.outflow)
      (fun x => by simp [Entry.abs_outflow]) (fun x => Entry.outflow_scale x)
    refine ⟨c, hc, hcv.trans ?_⟩
    exact e.books.ledger.totalVal_eq_sum_positions s (by simp [consumedTypes]) _ hdocs hall
      fun sm hsm p hp => ((hall sm hsm).consumed p hp).trans (consumedAt_eq_sum_filter _ _)

end Engine

/-! ## Section 5: An order, its invoice and a claim -/

/-- The travel and training accounts of the operations cost center in the 2026 fiscal year. -/
def travelKey : DimensionKey := ⟨"ACME", "FY2026", "CC-OPS", "6100", none, none⟩

def trainingKey : DimensionKey := ⟨"ACME", "FY2026", "CC-OPS", "6200", none, none⟩

/-- An order that reserved 300 of travel, of which an invoice then consumed 120, and an expense
    claim that reserved 50 of training. -/
def orderAndClaim : Ledger :=
  { entries :=
      [Entry.ofDraft (EntryDraft.make travelKey .reservation (Decimal.ofNat 300)
          ⟨"Purchase Order", "PO-1"⟩ ⟨2026, 3, 1⟩) 0 0 0,
       Entry.ofDraft (EntryDraft.make travelKey .release (Decimal.ofNat 120)
          ⟨"Purchase Order", "PO-1"⟩ ⟨2026, 3, 9⟩) 1 1 1,
       Entry.ofDraft ((EntryDraft.make travelKey .consumption (Decimal.ofNat 120)
          ⟨"Purchase Order", "PO-1"⟩ ⟨2026, 3, 9⟩).bookedAgainst ⟨"Purchase Invoice", "PINV-1"⟩)
          2 1 1,
       Entry.ofDraft (EntryDraft.make trainingKey .reservation (Decimal.ofNat 50)
          ⟨"Expense Claim", "EXP-1"⟩ ⟨2026, 3, 10⟩) 3 2 2],
    batches := 3 }

/-- The engine whose books hold that ledger. -/
def orderAndClaimEngine : Engine := { books := { ledger := orderAndClaim } }

/-- The ledger's whole amounts have room at scale 0, so the order's and the claim's summaries
    reconcile with the totals of every scope. -/
theorem Engine.order_and_claim_reconcile :
    Decimal.Room 0 (orderAndClaimEngine.books.ledger.entries.map Entry.amount) ∧
      ∃ sums, ((orderAndClaimEngine.books.ledger.documents.mapM summary).run).run
          orderAndClaimEngine = (.ok sums, orderAndClaimEngine) ∧
        sums.map (·.document) = orderAndClaimEngine.books.ledger.documents ∧
        ∀ s : BudgetScope,
          (∃ r, orderAndClaimEngine.books.ledger.reservedTotal s = .ok r ∧
            r.val = (sums.map (·.reservedIn s)).sum) ∧
          ∃ c, orderAndClaimEngine.books.ledger.consumedTotal s = .ok c ∧
            c.val = (sums.map (·.consumedIn s)).sum := by
  have hroom : Decimal.Room 0 (orderAndClaimEngine.books.ledger.entries.map Entry.amount) :=
    ⟨by decide, by decide +kernel, by decide +kernel⟩
  exact ⟨hroom, Engine.summaries_reconcile orderAndClaimEngine hroom⟩

end Encumbrance
