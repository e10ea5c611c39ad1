import Mathlib
import Encumbrance.Proofs.Control.Gate

/-! # An unchecked append that goes through

    The unchecked append refuses nothing. With its scopes free, a batch that passes its checks
    and room for the amounts of the books and the batch, it appends the batch and answers with
    the rows written and the overruns. On the way it reads every scope of the batch twice: what
    the scope had before the write and what it has after. Both reads are exact against an
    agreeing cache, and the drop between them, which the overrun reports, weighs no more than
    the batch itself (`Books.abs_availableVal_append_le`).
-/

namespace Encumbrance

open Decimal

/-! ## Section 1: What a batch moves -/

namespace Ledger

/-- Appending a batch adds to a scope's total the batch's rows of that scope and those types. -/
theorem totalVal_append {l l' : Ledger} {ds : List EntryDraft} {es : List Entry}
    (happ : l.append ds = .ok (es, l')) (s : BudgetScope) (types : List EntryType)
    (weight : Entry → Decimal) :
    l'.totalVal s types weight = l.totalVal s types weight +
      ((es.filter ({ scope := some s, types } : LedgerQuery).admits).map
        fun x => (weight x).val).sum := by
  simp only [totalVal, select_append happ, List.map_append, List.sum_append]

end Ledger

/-- Rows weighed by their outflow, either way, weigh at most their amounts. -/
theorem abs_sum_outflow_le (xs : List Entry) {weight : Entry → Decimal}
    (habs : ∀ x, |(weight x).val| = |x.amount.val|) :
    |(xs.map fun x => (weight x).val).sum| ≤ (xs.map fun x => |x.amount.val|).sum := by
  have h := abs_sum_val_le (xs.map weight)
  simp only [List.map_map, Function.comp_def, habs] at h
  exact h

namespace Books

/-- After an append the books hold the amounts they held and the batch's. -/
theorem amounts_append_perm {b b' : Books} {ds : List EntryDraft} {es : List Entry}
    (henv : b'.envelopes = b.envelopes) (hposted : b'.posted = b.posted)
    (happ : b.ledger.append ds = .ok (es, b'.ledger)) :
    b'.amounts.Perm (b.amounts ++ ds.map EntryDraft.amount) := by
  have hD : es.map Entry.amount = ds.map EntryDraft.amount := by
    rw [← Ledger.append_drafts happ, List.map_map]
    rfl
  simp only [amounts, Ledger.append_entries happ, List.map_append, hD, henv, hposted,
    List.append_assoc]
  exact List.Perm.append_left _ (List.Perm.append_left _ List.perm_append_comm)

/-- Appending a batch moves what a scope has available by at most what the batch weighs. -/
theorem abs_availableVal_append_le {b : Books} {l : Ledger} {ds : List EntryDraft}
    {es : List Entry} (happ : b.ledger.append ds = .ok (es, l)) (s : BudgetScope) :
    |({ b with ledger := l } : Books).availableVal s - b.availableVal s| ≤
      ((ds.map EntryDraft.amount).map fun x => |x.val|).sum := by
  -- the batch weighs what its rows weigh
  have hw : ((ds.map EntryDraft.amount).map fun x => |x.val|).sum =
      (es.map fun x => |x.amount.val|).sum := by
    rw [← Ledger.append_drafts happ, List.map_map, List.map_map]
    rfl
  have hneg : ∀ x : Entry, |(-x.outflow).val| = |x.amount.val| := fun x => by
    simp [Entry.abs_outflow]
  -- its allocation, spending and reservation rows are different rows
  have h3 := sum_filter_three_le es (fun x => |x.amount.val|) (fun _ => abs_nonneg _)
    ({ scope := some s, types := allocationTypes } : LedgerQuery).admits
    ({ scope := some s, types := consumedTypes } : LedgerQuery).admits
    ({ scope := some s, types := reservedTypes } : LedgerQuery).admits
    (by intro x hx; cases ht : x.entryType <;>
      simp_all [LedgerQuery.admits, allocationTypes, consumedTypes])
    (by intro x hx; cases ht : x.entryType <;>
      simp_all [LedgerQuery.admits, allocationTypes, reservedTypes])
    (by intro x hx; cases ht : x.entryType <;>
      simp_all [LedgerQuery.admits, consumedTypes, reservedTypes])
  have hA := abs_sum_outflow_le
    (es.filter ({ scope := some s, types := allocationTypes } : LedgerQuery).admits) hneg
  have hC := abs_sum_outflow_le
    (es.filter ({ scope := some s, types := consumedTypes } : LedgerQuery).admits) hneg
  have hR := abs_sum_outflow_le
    (es.filter ({ scope := some s, types := reservedTypes } : LedgerQuery).admits)
    Entry.abs_outflow
  have hnnC := sum_abs_nonneg
    ((es.filter ({ scope := some s, types := consumedTypes } : LedgerQuery).admits).map
      Entry.amount)
  simp only [List.map_map, Function.comp_def] at hnnC
  rw [hw]
  unfold availableVal actualVal
  cases b.actualsFrom with
  | posted =>
    simp only [Ledger.totalVal_append happ]
    rw [abs_le] at hA hR ⊢
    constructor <;> linarith
  | ledger =>
    simp only [Ledger.totalVal_append happ]
    rw [abs_le] at hA hC hR ⊢
    constructor <;> linarith

/-- With room for the amounts of the books and the batch, the drop a write makes in a scope's
    available figure fits a mantissa at that scale. -/
theorem availableVal_drop_fits {b : Books} {l : Ledger} {ds : List EntryDraft} {es : List Entry}
    {S : ℕ} (happ : b.ledger.append ds = .ok (es, l))
    (hroom : Room S (b.amounts ++ ds.map EntryDraft.amount)) (s : BudgetScope) :
    |b.availableVal s - ({ b with ledger := l } : Books).availableVal s| * 10 ^ S <
      mantissaLimit := by
  have hnn := sum_abs_nonneg b.amounts
  refine hroom.fits_of_le ?_
  rw [List.map_append, List.sum_append, abs_sub_comm]
  linarith [abs_availableVal_append_le happ s]

/-! ## Section 2: The reads after the write -/

variable {byAccount : Bool} {b : Books}

/-- Forgetting the figures of some scopes goes through and changes only the cache. -/
theorem run_forIn_invalidate :
    ∀ (scopes : List BudgetScope) (b : Books), ∃ c,
      ((forIn scopes ⟨⟩ fun s _ => do Books.invalidate s; pure (ForInStep.yield ⟨⟩) :
        BooksM PUnit).run).run b = (.ok ⟨⟩, { b with cache := c })
  | [], b => ⟨b.cache, rfl⟩
  | s :: scopes, b => by
    obtain ⟨c, hc⟩ := run_forIn_invalidate scopes
      (if b.cache.remembers then { b with cache := b.cache.invalidate s } else b)
    have hforget : ((Books.invalidate s).run).run b =
        (.ok ⟨⟩, if b.cache.remembers then { b with cache := b.cache.invalidate s } else b) :=
      run_modify _ _
    rw [List.forIn_cons, run_bind, run_bind, hforget]
    simp only [run_pure]
    rw [hc]
    split <;> exact ⟨c, rfl⟩

/-- The overrun a scope shows in `b` against the figure `before` it had: when it is below zero
    and lower than before, the scope with the drop, the figure before and how far below zero it
    went. -/
def overrunVal (b : Books) (s : BudgetScope) (before : ℚ) : Option (BudgetScope × ℚ × ℚ × ℚ) :=
  if b.availableVal s < 0 ∧ b.availableVal s < before then
    some (s, before - b.availableVal s, before, -b.availableVal s)
  else none

/-- The overruns a write from `b` to `b'` leaves among `scopes`, in their order. -/
def overrunsAmong (b b' : Books) (scopes : List BudgetScope) : List (BudgetScope × ℚ × ℚ × ℚ) :=
  scopes.filterMap fun s => b'.overrunVal s (b.availableVal s)

@[simp] theorem overrunVal_cache (b : Books) (c : ActualsCache) (s : BudgetScope) (before : ℚ) :
    ({ b with cache := c } : Books).overrunVal s before = b.overrunVal s before := rfl

/-- The overrun of a key's scope, against an agreeing cache: with room for the books' amounts,
    a figure `before` of scale at most `S` and a drop to what the scope has now that fits, the
    read goes through, changing only the cache and keeping it agreeing, and reports the overrun
    the exact figures show. -/
theorem run_overrunOf_ok (h : CacheAgrees byAccount [] b) (k : DimensionKey) {S : ℕ}
    (hroom : Room S b.amounts) {before : Decimal} (hbs : before.scale ≤ S)
    (hdrop : |before.val - b.availableVal (BudgetScope.ofKey k byAccount)| * 10 ^ S <
      mantissaLimit) :
    ∃ o c, ((Engine.overrunOf (BudgetScope.ofKey k byAccount) before).run).run b =
        (.ok o, { b with cache := c }) ∧ CacheAgrees byAccount [] { b with cache := c } ∧
      o.map Shortfall.vals = b.overrunVal (BudgetScope.ofKey k byAccount) before.val := by
  obtain ⟨after, c, hrun, hc, hval, hs⟩ :=
    run_available_exact h (List.not_mem_nil (a := BudgetScope.ofKey k byAccount)) hroom
  obtain ⟨d, hd, hdv, -⟩ := sub_exact_of_fits hbs hs hroom.scale_le (by rwa [hval])
  -- the read compares the figure after with zero and with the figure before, exactly
  have hcond : (after < Decimal.zero ∧ after < before) ↔
      (b.availableVal (BudgetScope.ofKey k byAccount) < 0 ∧
        b.availableVal (BudgetScope.ofKey k byAccount) < before.val) := by
    rw [lt_iff_val, lt_iff_val, val_zero, hval]
  unfold Engine.overrunOf
  rw [run_bind, hrun]
  dsimp only
  split
  · rename_i hlt
    have hlt' := hcond.1 (by simpa using hlt)
    refine ⟨_, c, by simp only [run_bind, hd, run_arith_ok, run_pure]; rfl, hc, ?_⟩
    simp [overrunVal, hlt', Shortfall.vals, hdv, hval]
  · rename_i hlt
    have hlt' : ¬(b.availableVal (BudgetScope.ofKey k byAccount) < 0 ∧
        b.availableVal (BudgetScope.ofKey k byAccount) < before.val) := fun h' =>
      hlt (by simpa using hcond.2 h')
    exact ⟨none, c, rfl, hc, by simp [overrunVal, hlt']⟩

/-- The overruns of some keys' scopes, each read against its figure before: each read goes
    through, the cache keeps agreeing, and the overruns are those the exact figures show. -/
theorem run_filterMapM_overrunOf {S : ℕ} :
    ∀ (xs : List (BudgetScope × Decimal)) {b : Books}, CacheAgrees byAccount [] b →
      Room S b.amounts →
      (∀ x ∈ xs, (∃ k, x.1 = BudgetScope.ofKey k byAccount) ∧ x.2.scale ≤ S ∧
        |x.2.val - b.availableVal x.1| * 10 ^ S < mantissaLimit) →
      ∃ os c, ((xs.filterMapM fun (s, before) => Engine.overrunOf s before).run).run b =
        (.ok os, { b with cache := c }) ∧ CacheAgrees byAccount [] { b with cache := c } ∧
        os.map Shortfall.vals = xs.filterMap fun x => b.overrunVal x.1 x.2.val
  | [], b, h, _, _ => ⟨[], b.cache, rfl, h, rfl⟩
  | (s, before) :: xs, b, h, hroom, hxs => by
    obtain ⟨⟨k, hk⟩, hbs, hdrop⟩ := hxs (s, before) List.mem_cons_self
    simp only at hk hbs hdrop
    subst hk
    obtain ⟨o, c, hrun, hc, ho⟩ := run_overrunOf_ok h k hroom hbs hdrop
    -- the rest is read from the books as they were, but for the cache
    obtain ⟨os, c', hrun', hc', hos⟩ := run_filterMapM_overrunOf xs hc hroom fun x hx =>
      hxs x (List.mem_cons_of_mem _ hx)
    simp only [overrunVal_cache] at hos
    rw [List.filterMapM_cons, run_bind, hrun, List.filterMap_cons]
    cases o with
    | none =>
      rw [← ho]
      exact ⟨os, c', hrun', hc', hos⟩
    | some sh =>
      refine ⟨sh :: os, c', ?_, hc', ?_⟩
      · simp only [run_bind, hrun', run_pure]
      · rw [← ho, Option.map_some, List.map_cons, hos]

end Books

/-! ## Section 3: The append -/

namespace Engine

open Books

/-- A list computation that goes through returns one result per member. -/
theorem run_mapM_length {α β σ ε : Type} (f : α → ExceptT ε (StateM σ) β) :
    ∀ (xs : List α) (s : σ) {ys : List β} {s' : σ},
      ((xs.mapM f).run).run s = (.ok ys, s') → ys.length = xs.length
  | [], s, ys, s', h => by
    rw [List.mapM_nil, run_pure] at h
    cases (Prod.mk.inj h).1
    rfl
  | x :: xs, s, ys, s', h => by
    rw [List.mapM_cons, run_bind] at h
    rcases hx : ((f x).run).run s with ⟨_ | y, s₁⟩ <;> rw [hx] at h
    · cases h
    · dsimp only at h
      rw [run_bind] at h
      rcases hxs : ((xs.mapM f).run).run s₁ with ⟨_ | ys', s₂⟩ <;> rw [hxs] at h
      · cases h
      · cases (Prod.mk.inj h).1
        rw [List.length_cons, run_mapM_length f xs s₁ hxs, List.length_cons]

/-- A batch whose append went through found all its scopes free. -/
theorem AppendStep.free_of_ok {α : Type} {ds : List EntryDraft}
    {x : EngineM (List Entry × List Shortfall)} (hx : AppendStep ds x) {e e' : Engine}
    {needs : List (BudgetScope × Decimal)}
    (hneeds : ds.foldlM (addDemand e.config.controlByAccount) [] = .ok needs)
    {k : List Entry × List Shortfall → α} {a : α} (h : ((k <$> x).run).run e = (.ok a, e')) :
    ∀ d ∈ ds, e.scopeOf d.key ∉ e.books.locks.held := by
  intro d hd hheld
  obtain ⟨blocked, t, hacq⟩ :=
    LockTable.acquire_error_of_held ((mem_demandScopes hneeds _).2 ⟨d, hd, rfl⟩) hheld
  rw [run_map, hx.conflict hneeds hacq] at h
  cases h

/-- A batch whose append went through found the scope of each row it wrote free: with room
    for the rows, its demand is exact, so only a held scope could have refused it. -/
theorem AppendStep.free_of_rows {α : Type} {ds : List EntryDraft}
    {x : EngineM (List Entry × List Shortfall)} (hx : AppendStep ds x) {e e' : Engine}
    {k : List Entry × List Shortfall → α} {a : α} (h : ((k <$> x).run).run e = (.ok a, e'))
    {es : List Entry} {l : Ledger} (happ : e.books.ledger.append ds = .ok (es, l)) {S : ℕ}
    (hroom : Room S (es.map Entry.amount)) :
    ∀ y ∈ es, e.scopeOf y.key ∉ e.books.locks.held := by
  have hdrafts := Ledger.append_drafts happ
  have hroomD : Room S ((es.map Entry.draft).map EntryDraft.amount) := by
    rw [List.map_map]
    exact hroom
  rw [hdrafts] at hroomD
  obtain ⟨needs, hneeds, -, -⟩ := demand_exact e.config.controlByAccount hroomD
  intro y hy
  exact hx.free_of_ok hneeds h y.draft (hdrafts ▸ List.mem_map_of_mem hy)

/-- With its scopes free, an agreeing cache, a batch that passes its checks and room for the
    amounts of the books and the batch, the unchecked append goes through: it appends the
    batch, and its overruns are the scopes of the batch, in lock order, that the write left
    below zero and lower than they were, as the exact figures show. -/
theorem appendUnchecked_reports {ds : List EntryDraft} {e : Engine} {S : ℕ}
    (hagree : e.CacheAgrees) (hfree : ∀ d ∈ ds, e.scopeOf d.key ∉ e.books.locks.held)
    (hvalid : validateBatch ds = .ok ()) (hroom : Room S (e.books.amounts ++ ds.map EntryDraft.amount)) :
    ∃ es l, e.books.ledger.append ds = .ok (es, l) ∧ ∃ sh,
      (((appendUnchecked ds).run).run e).1 = .ok (es, sh) ∧
      sh.map Shortfall.vals = e.books.overrunsAmong { e.books with ledger := l }
        (LockTable.ordered (ds.map fun d => e.scopeOf d.key)) := by
  obtain ⟨needs, hd, hdem, hord⟩ :=
    demand_exact e.config.controlByAccount (S := S) (hroom.sublist (List.sublist_append_right _ _))
  obtain ⟨t, hacq⟩ := acquire_ok_of_demand hdem hfree
  have hof := demandScopes_ofKey hd
  obtain ⟨es, l, happ⟩ := e.books.ledger.append_of_valid hvalid
  have hroom₀ : Room S e.books.amounts := hroom.sublist (List.sublist_append_left _ _)
  -- what the batch's scopes have before the write
  obtain ⟨before, c, hrun₁, hc₁, hbefore⟩ := run_mapM_available (S := S) (needs.map (·.1))
    ((cacheAgrees_locks t).2 hagree) hroom₀ hof
  have hlen := run_mapM_length _ _ _ hrun₁
  -- after the write the books hold the batch's amounts too
  have hroom₂ : ∀ c' : ActualsCache,
      Room S ({ e.books with locks := t, cache := c', ledger := l } : Books).amounts := fun c' =>
    hroom.perm (@Books.amounts_append_perm e.books
      { e.books with locks := t, cache := c', ledger := l } ds es rfl rfl happ).symm
  -- each drop from before to after weighs at most the batch
  have hdrops : ∀ c' : ActualsCache, ∀ x ∈ (needs.map (·.1)).zip before,
      (∃ k, x.1 = BudgetScope.ofKey k e.config.controlByAccount) ∧ x.2.scale ≤ S ∧
        |x.2.val - ({ e.books with locks := t, cache := c', ledger := l } : Books).availableVal x.1| *
          10 ^ S < mantissaLimit := by
    intro c' x hx
    obtain ⟨hval, hscale⟩ := hbefore x hx
    refine ⟨hof x.1 (List.of_mem_zip hx).1, hscale, ?_⟩
    rw [hval]
    exact availableVal_drop_fits happ hroom x.1
  -- the overruns read after the write are those the exact figures show
  have hvals : ∀ c' : ActualsCache,
      (((needs.map (·.1)).zip before).filterMap fun x =>
        ({ e.books with locks := t, cache := c', ledger := l } : Books).overrunVal x.1 x.2.val) =
      e.books.overrunsAmong { e.books with ledger := l }
        (LockTable.ordered (ds.map fun d => e.scopeOf d.key)) := by
    intro c'
    have hfst : ((needs.map (·.1)).zip before).map Prod.fst = needs.map (·.1) :=
      List.map_fst_zip (by rw [hlen])
    calc (((needs.map (·.1)).zip before).filterMap fun x =>
          ({ e.books with locks := t, cache := c', ledger := l } : Books).overrunVal x.1 x.2.val)
        = ((needs.map (·.1)).zip before).filterMap fun x =>
            ({ e.books with ledger := l } : Books).overrunVal x.1 (e.books.availableVal x.1) :=
          List.filterMap_congr fun x hx => by rw [(hbefore x hx).1]; rfl
      _ = (((needs.map (·.1)).zip before).map Prod.fst).filterMap fun s =>
            ({ e.books with ledger := l } : Books).overrunVal s (e.books.availableVal s) := by
          rw [List.filterMap_map]; rfl
      _ = _ := by rw [hfst, hord]; rfl
  refine ⟨es, l, happ, ?_⟩
  unfold appendUnchecked
  rw [run_bind, run_demand, hd]
  simp only [run_arith_ok, run_onBooks]
  rw [run_withScopes_free hacq, run_bind, hrun₁]
  dsimp only
  rw [run_bind, run_write]
  simp only [happ]
  split
  · -- spending rows: the batch's scopes are forgotten, then read again
    obtain ⟨c', hforget⟩ := run_forIn_invalidate (needs.map (·.1))
      { e.books with locks := t, cache := c, ledger := l }
    have hagree₃ := hc₁.write_forgetAll hd happ
    rw [hforget] at hagree₃
    obtain ⟨os, c'', hrun₃, -, hos⟩ := run_filterMapM_overrunOf _ hagree₃ (hroom₂ c') (hdrops c')
    rw [run_bind, hforget]
    simp only [run_bind, hrun₃, run_pure]
    exact ⟨os, rfl, hos.trans (hvals c')⟩
  · -- no spending rows: the write changes no live figure
    rename_i htouch
    have hagree₂ := hc₁.write_of_not_spending htouch happ
    obtain ⟨os, c'', hrun₃, -, hos⟩ := run_filterMapM_overrunOf _ hagree₂ (hroom₂ c) (hdrops c)
    simp only [run_bind, hrun₃, run_pure]
    exact ⟨os, rfl, hos.trans (hvals c)⟩

/-- The same without the report: the unchecked append goes through and answers with the rows
    it appended. -/
theorem appendUnchecked_ok {ds : List EntryDraft} {e : Engine} {S : ℕ} (hagree : e.CacheAgrees)
    (hfree : ∀ d ∈ ds, e.scopeOf d.key ∉ e.books.locks.held) (hvalid : validateBatch ds = .ok ())
    (hroom : Room S (e.books.amounts ++ ds.map EntryDraft.amount)) :
    ∃ es sh, (((appendUnchecked ds).run).run e).1 = .ok (es, sh) := by
  obtain ⟨es, -, -, sh, hrun, -⟩ := appendUnchecked_reports hagree hfree hvalid hroom
  exact ⟨es, sh, hrun⟩

/-- The same through any continuation: the books after the append hold the batch within the
    room. -/
theorem run_appendUnchecked_ok {α : Type} {ds : List EntryDraft} {e : Engine} {S : ℕ}
    (hagree : e.CacheAgrees) (hfree : ∀ d ∈ ds, e.scopeOf d.key ∉ e.books.locks.held)
    (hvalid : validateBatch ds = .ok ()) (hroom : Room S (e.books.amounts ++ ds.map EntryDraft.amount))
    (k : List Entry × List Shortfall → α) :
    ∃ r e', ((k <$> appendUnchecked ds).run).run e = (.ok (k r), e') ∧
      Room S (e'.books.ledger.entries.map Entry.amount) := by
  obtain ⟨es, sh, hok⟩ := appendUnchecked_ok hagree hfree hvalid hroom
  rcases hrun : ((appendUnchecked ds).run).run e with ⟨r, e'⟩
  rw [hrun] at hok
  dsimp only at hok
  subst hok
  obtain ⟨-, happ⟩ := (appendStep_unchecked ds).appends e
  rw [hrun] at happ
  change e.books.ledger.append ds = .ok (es, e'.books.ledger) at happ
  refine ⟨(es, sh), e', by rw [run_map, hrun], hroom.sublist ?_⟩
  rw [Ledger.append_entries happ, List.map_append, ← Ledger.append_drafts happ, List.map_map]
  exact (Books.ledger_sublist_amounts _).append (List.Sublist.refl _)

end Engine

end Encumbrance
