import Mathlib
import Encumbrance.Proofs.Availability.Agreement
import Encumbrance.Proofs.State.Totals

/-! # Availability in exact arithmetic

    What a scope has available is its envelope plus the ledger's allocation adjustment, less
    its actual spend and its outstanding reservations. Read as rational numbers, each of these
    is a plain sum over the amounts the books hold (`Books.availableVal`).

    When all those amounts, and the amount requested, fit together in the decimal mantissa at
    one scale (`Decimal.Room`), every figure and every difference a check takes is exact. And
    a read through a cache that agrees with the live figures answers the live figure. So a
    check of a scope of a key, against an agreeing cache, stands exactly where the rational
    figures say: it reports the scope's available amount, whether the request fits, and by
    how much it falls short.
-/

namespace Encumbrance

open Decimal

/-! ## Section 1: The figures as sums -/

/-- The amounts of the keys a scope contains, added up exactly. -/
def scopeSumVal (entries : List (DimensionKey × Decimal)) (s : BudgetScope) : ℚ :=
  ((entries.filter fun e => s.contains e.1).map fun e => e.2.val).sum

namespace Ledger

/-- A scope's total over some types, added up exactly. -/
def totalVal (l : Ledger) (s : BudgetScope) (types : List EntryType) (weight : Entry → Decimal) : ℚ :=
  ((l.select { scope := some s, types }).map fun x => (weight x).val).sum

end Ledger

namespace Books

/-- A scope's actual spend, added up exactly from where actuals come. -/
def actualVal (b : Books) (s : BudgetScope) : ℚ :=
  match b.actualsFrom with
  | .posted => scopeSumVal b.posted.entries s
  | .ledger => b.ledger.totalVal s consumedTypes fun e => -e.outflow

/-- What a scope has available, exactly: envelope plus allocation adjustment, less actual
    spend and outstanding reservations. -/
def availableVal (b : Books) (s : BudgetScope) : ℚ :=
  scopeSumVal b.envelopes.entries s + b.ledger.totalVal s allocationTypes (fun e => -e.outflow) -
    b.actualVal s - b.ledger.totalVal s reservedTypes Entry.outflow

/-- A scope's figures, exactly: what is allocated to it (envelope plus allocation adjustment),
    its actual spend, its outstanding reservations and what it has available. -/
def figures (b : Books) (s : BudgetScope) : ℚ × ℚ × ℚ × ℚ :=
  (scopeSumVal b.envelopes.entries s + b.ledger.totalVal s allocationTypes (fun e => -e.outflow),
    b.actualVal s, b.ledger.totalVal s reservedTypes Entry.outflow, b.availableVal s)

/-- Every amount the books hold: envelopes, ledger rows and posted spend. -/
def amounts (b : Books) : List Decimal :=
  b.envelopes.entries.map (·.2) ++ b.ledger.entries.map Entry.amount ++ b.posted.entries.map (·.2)

theorem ledger_sublist_amounts (b : Books) : (b.ledger.entries.map Entry.amount).Sublist b.amounts :=
  (List.sublist_append_right _ _).trans (List.sublist_append_left _ _)

/-- The figures read only what availability is computed from, not the cache or the locks. -/
@[simp] theorem availableVal_cache (b : Books) (c : ActualsCache) (s : BudgetScope) :
    ({ b with cache := c } : Books).availableVal s = b.availableVal s := rfl

@[simp] theorem amounts_cache (b : Books) (c : ActualsCache) :
    ({ b with cache := c } : Books).amounts = b.amounts := rfl

end Books

/-! ## Section 2: Each figure is exact with room -/

/-- The magnitude of a sum is at most the sum of the magnitudes. -/
theorem abs_sum_val_le (xs : List Decimal) :
    |(xs.map Decimal.val).sum| ≤ (xs.map fun x => |x.val|).sum := by
  simpa [List.map_map, Function.comp_def] using
    Multiset.abs_sum_le_sum_abs (s := ((xs.map Decimal.val : List ℚ) : Multiset ℚ))

theorem sum_abs_nonneg (xs : List Decimal) : 0 ≤ (xs.map fun x => |x.val|).sum :=
  List.sum_nonneg fun _ h => by obtain ⟨_, _, rfl⟩ := List.mem_map.1 h; exact abs_nonneg _

/-- Fewer amounts weigh at most as much. -/
theorem sum_abs_le_of_sublist {xs ys : List Decimal} (h : ys.Sublist xs) :
    (ys.map fun x => |x.val|).sum ≤ (xs.map fun x => |x.val|).sum :=
  (h.map _).sum_le_sum fun _ ha => by obtain ⟨_, _, rfl⟩ := List.mem_map.1 ha; exact abs_nonneg _

/-- A scope's sum over keyed amounts is exact with room, and weighs at most all of them. -/
theorem scopeSum_exact {S : ℕ} {entries : List (DimensionKey × Decimal)}
    (hroom : Room S (entries.map (·.2))) (s : BudgetScope) :
    ∃ c, scopeSum entries s = .ok c ∧ c.val = scopeSumVal entries s ∧ c.scale ≤ S ∧
      |c.val| ≤ ((entries.map (·.2)).map fun x => |x.val|).sum := by
  have hsub : ((entries.filter fun e => s.contains e.1).map (·.2)).Sublist (entries.map (·.2)) :=
    List.filter_sublist.map _
  obtain ⟨c, hc, hcv, hcs⟩ := sum_exact (hroom.sublist hsub)
  refine ⟨c, hc, by rw [hcv, List.map_map]; rfl, hcs, ?_⟩
  rw [hcv]
  exact (abs_sum_val_le _).trans (sum_abs_le_of_sublist hsub)

/-- A ledger total is exact with room, and weighs at most the rows it selects. -/
theorem Ledger.total_exact {S : ℕ} {l : Ledger} (hroom : Room S (l.entries.map Entry.amount))
    (s : BudgetScope) (types : List EntryType) (weight : Entry → Decimal)
    (habs : ∀ x, |(weight x).val| = |x.amount.val|) (hscale : ∀ x, (weight x).scale = x.amount.scale) :
    ∃ c, l.total s types weight = .ok c ∧ c.val = l.totalVal s types weight ∧ c.scale ≤ S ∧
      |c.val| ≤ (((l.select { scope := some s, types }).map Entry.amount).map fun x => |x.val|).sum := by
  have hsub := (List.filter_sublist (p := ({ scope := some s, types } : LedgerQuery).admits)
    (l := l.entries)).map Entry.amount
  have hroomL : Room S ((l.select { scope := some s, types }).map weight) :=
    (hroom.sublist hsub).congr (fun x _ => habs x) (fun x _ => hscale x)
  obtain ⟨c, hc, hcv, hcs⟩ := sum_exact hroomL
  refine ⟨c, hc, by rw [hcv, List.map_map]; rfl, hcs, ?_⟩
  rw [hcv]
  refine (abs_sum_val_le _).trans (le_of_eq ?_)
  simp only [List.map_map, Function.comp_def, habs]

/-- Rows of three kinds that exclude each other weigh together at most all rows. -/
theorem sum_filter_three_le {α : Type} (l : List α) (f : α → ℚ) (hf : ∀ x, 0 ≤ f x)
    (p q r : α → Bool) (hpq : ∀ x, p x = true → q x = false) (hpr : ∀ x, p x = true → r x = false)
    (hqr : ∀ x, q x = true → r x = false) :
    ((l.filter p).map f).sum + ((l.filter q).map f).sum + ((l.filter r).map f).sum ≤ (l.map f).sum := by
  induction l with
  | nil => simp
  | cons x xs ih =>
    have hx := hf x
    simp only [List.filter_cons]
    -- the row counts once, in the one kind it is of, if any
    by_cases hp : p x = true
    · rw [if_pos hp, if_neg (by simp [hpq x hp]), if_neg (by simp [hpr x hp])]
      simp only [List.map_cons, List.sum_cons]
      linarith
    by_cases hq : q x = true
    · rw [if_neg hp, if_pos hq, if_neg (by simp [hqr x hq])]
      simp only [List.map_cons, List.sum_cons]
      linarith
    rw [if_neg hp, if_neg hq]
    by_cases hr : r x = true
    · rw [if_pos hr]
      simp only [List.map_cons, List.sum_cons]
      linarith
    · rw [if_neg hr]
      simp only [List.map_cons, List.sum_cons]
      linarith

/-- A scope's allocation, spending and reservation rows are different rows, so together they
    weigh at most the whole ledger. -/
theorem Ledger.sum_abs_kinds_le (l : Ledger) (s : BudgetScope) :
    (((l.select { scope := some s, types := allocationTypes }).map Entry.amount).map
        fun x => |x.val|).sum +
      (((l.select { scope := some s, types := consumedTypes }).map Entry.amount).map
        fun x => |x.val|).sum +
      (((l.select { scope := some s, types := reservedTypes }).map Entry.amount).map
        fun x => |x.val|).sum ≤ ((l.entries.map Entry.amount).map fun x => |x.val|).sum := by
  simp only [Ledger.select, List.map_map, Function.comp_def]
  refine sum_filter_three_le _ _ (fun _ => abs_nonneg _) _ _ _ ?_ ?_ ?_ <;>
  · intro x hx
    cases ht : x.entryType <;>
      simp_all [LedgerQuery.admits, allocationTypes, consumedTypes, reservedTypes]

namespace Books

/-- With room for every amount the books hold and one amount more, the four figures of a
    scope are exact, and with that amount they still fit in the mantissa. -/
theorem figures_exact {S : ℕ} {b : Books} {q : Decimal} (hroom : Room S (b.amounts ++ [q]))
    (s : BudgetScope) :
    ∃ env adj u r : Decimal,
      b.envelopes.allocated s = .ok env ∧ b.ledger.allocationAdjustment s = .ok adj ∧
      b.liveActual s = .ok u ∧ b.ledger.reservedTotal s = .ok r ∧
      env.val + adj.val - u.val - r.val = b.availableVal s ∧
      env.scale ≤ S ∧ adj.scale ≤ S ∧ u.scale ≤ S ∧ r.scale ≤ S ∧ q.scale ≤ S ∧
      (|env.val| + |adj.val| + |u.val| + |r.val| + |q.val|) * 10 ^ S < mantissaLimit := by
  -- the room of each source of amounts
  have hE : Room S (b.envelopes.entries.map (·.2)) :=
    hroom.sublist ((List.sublist_append_left _ _).trans (List.sublist_append_left _ _) |>.trans
      (List.sublist_append_left _ _))
  have hL : Room S (b.ledger.entries.map Entry.amount) :=
    hroom.sublist (((List.sublist_append_right _ _).trans (List.sublist_append_left _ _)).trans
      (List.sublist_append_left _ _))
  have hP : Room S (b.posted.entries.map (·.2)) :=
    hroom.sublist ((List.sublist_append_right _ _).trans (List.sublist_append_left _ _))
  have hfit := hroom.fits
  simp only [amounts, List.map_append, List.sum_append, List.map_cons, List.map_nil,
    List.sum_cons, List.sum_nil, add_zero] at hfit
  obtain ⟨env, henv, henvv, henvs, henvb⟩ := scopeSum_exact hE s
  obtain ⟨adj, hadj, hadjv, hadjs, hadjb⟩ := Ledger.total_exact hL s allocationTypes
    (fun e => -e.outflow) (fun x => by simp [Entry.abs_outflow]) (fun x => Entry.outflow_scale x)
  obtain ⟨r, hr, hrv, hrs, hrb⟩ := Ledger.total_exact hL s reservedTypes
    Entry.outflow Entry.abs_outflow Entry.outflow_scale
  obtain ⟨c, hc, hcv, hcs, hcb⟩ := Ledger.total_exact hL s consumedTypes
    (fun e => -e.outflow) (fun x => by simp [Entry.abs_outflow]) (fun x => Entry.outflow_scale x)
  have hkinds := b.ledger.sum_abs_kinds_le s
  have hnn := fun l => sum_abs_nonneg l
  have hq : q.scale ≤ S := hroom.scales q (by simp)
  -- the spend is read from the postings or from the ledger's spending rows
  obtain ⟨u, hu, huv, hus, hub⟩ : ∃ u : Decimal, b.liveActual s = .ok u ∧ u.val = b.actualVal s ∧
      u.scale ≤ S ∧ |u.val| + |adj.val| + |r.val| ≤
        ((b.ledger.entries.map Entry.amount).map fun x => |x.val|).sum +
        ((b.posted.entries.map (·.2)).map fun x => |x.val|).sum := by
    unfold liveActual actualVal
    cases b.actualsFrom with
    | posted =>
      obtain ⟨p, hp, hpv, hps, hpb⟩ := scopeSum_exact hP s
      refine ⟨p, hp, hpv, hps, ?_⟩
      have := hnn (((b.ledger.select { scope := some s, types := consumedTypes }).map Entry.amount))
      linarith
    | ledger =>
      refine ⟨c, hc, hcv, hcs, ?_⟩
      have := hnn (b.posted.entries.map (·.2))
      linarith
  refine ⟨env, adj, u, r, henv, hadj, hu, hr, ?_, henvs, hadjs, hus, hrs, hq, ?_⟩
  · rw [henvv, hadjv, huv, hrv]
    rfl
  · refine lt_of_le_of_lt (mul_le_mul_of_nonneg_right ?_ (by positivity)) hfit
    linarith

/-- With room for every amount the books hold and one amount `q` more, the steps from a scope's
    figures to what it has available are all exact, and what it has fits together with `q`. -/
theorem available_exact {S : ℕ} {b : Books} {q : Decimal} (hroom : Room S (b.amounts ++ [q]))
    (s : BudgetScope) :
    ∃ env adj u r a rest av : Decimal,
      b.envelopes.allocated s = .ok env ∧ b.ledger.allocationAdjustment s = .ok adj ∧
      b.liveActual s = .ok u ∧ b.ledger.reservedTotal s = .ok r ∧
      Decimal.add env adj = .ok a ∧ Decimal.sub a u = .ok rest ∧ Decimal.sub rest r = .ok av ∧
      a.val = env.val + adj.val ∧ av.val = b.availableVal s ∧ av.scale ≤ S ∧ q.scale ≤ S ∧
      (|av.val| + |q.val|) * 10 ^ S < mantissaLimit := by
  obtain ⟨env, adj, u, r, henv, hadj, hu, hr, hval, hes, has, hus, hrs, hqs, hfit⟩ :=
    figures_exact hroom s
  have hS := hroom.scale_le
  -- every partial result weighs at most the figures together
  have hfits : ∀ x : ℚ, x ≤ |env.val| + |adj.val| + |u.val| + |r.val| + |q.val| →
      x * 10 ^ S < mantissaLimit := fun x hx =>
    lt_of_le_of_lt (mul_le_mul_of_nonneg_right hx (by positivity)) hfit
  have hnn := fun x : Decimal => abs_nonneg x.val
  obtain ⟨a, ha, hav, has'⟩ := add_exact hes has hS (hfits _ (by linarith [hnn u, hnn r, hnn q]))
  have hab : |a.val| ≤ |env.val| + |adj.val| := hav ▸ abs_add_le _ _
  obtain ⟨rest, hrest, hrestv, hrests⟩ := sub_exact has' hus hS
    (hfits _ (by linarith [hnn r, hnn q]))
  have hrestb : |rest.val| ≤ |a.val| + |u.val| := hrestv ▸ abs_sub _ _
  obtain ⟨av, hav', havv, havs⟩ := sub_exact hrests hrs hS (hfits _ (by linarith [hnn q]))
  have havb : |av.val| ≤ |rest.val| + |r.val| := havv ▸ abs_sub _ _
  refine ⟨env, adj, u, r, a, rest, av, henv, hadj, hu, hr, ha, hrest, hav', hav, ?_, havs, hqs,
    hfits _ (by linarith)⟩
  rw [havv, hrestv, hav, ← hval]

end Books

/-! ## Section 3: Reading and checking through an agreeing cache -/

/-- A standing as numbers: the scope, the amount requested, what was available, whether the
    request fit and by how much it fell short. -/
def Availability.vals (r : Availability) : BudgetScope × ℚ × ℚ × Bool × ℚ :=
  (r.scope, r.requested.val, r.available.val, r.ok, r.shortfall.val)

namespace Books

/-- Where a request of `q` stands against a scope, in exact arithmetic. -/
def standing (b : Books) (s : BudgetScope) (q : ℚ) : BudgetScope × ℚ × ℚ × Bool × ℚ :=
  (s, q, b.availableVal s, decide (q ≤ b.availableVal s),
    if q ≤ b.availableVal s then 0 else q - b.availableVal s)

@[simp] theorem standing_cache (b : Books) (c : ActualsCache) (s : BudgetScope) (q : ℚ) :
    ({ b with cache := c } : Books).standing s q = b.standing s q := rfl

variable {byAccount : Bool} {T : List BudgetScope} {b : Books}

/-- **No stale read.** Reading a key's scope through an agreeing cache answers the live
    figure, and changes nothing but the cache. -/
theorem run_actual_of_agrees (h : CacheAgrees byAccount T b) {k : DimensionKey}
    (hT : BudgetScope.ofKey k byAccount ∉ T) {v : Decimal}
    (hv : b.liveActual (BudgetScope.ofKey k byAccount) = .ok v) :
    ∃ c, ((actual (BudgetScope.ofKey k byAccount)).run).run b = (.ok v, { b with cache := c }) := by
  simp only [actual, run_bind, run_get]
  split
  · rw [hv]
    exact ⟨b.cache, rfl⟩
  · rename_i hrem
    split
    · -- a fresh slot of the scope holds the live figure
      rename_i x hx
      obtain ⟨hmem, hscope, hst⟩ := ActualsCache.lookup_some hx
      have hlive := (h (by simpa using hrem) x hmem hst).2 (hscope ▸ hT)
      rw [hscope, hv] at hlive
      cases hlive
      exact ⟨_, rfl⟩
    · rw [hv]
      exact ⟨_, rfl⟩

theorem run_allocated {s : BudgetScope} {env adj a : Decimal}
    (henv : b.envelopes.allocated s = .ok env) (hadj : b.ledger.allocationAdjustment s = .ok adj)
    (ha : Decimal.add env adj = .ok a) : ((allocated s).run).run b = (.ok a, b) := by
  simp only [allocated, run_bind, run_get, henv, hadj, ha, run_arith_ok]

theorem run_reserved {s : BudgetScope} {r : Decimal} (hr : b.ledger.reservedTotal s = .ok r) :
    ((reserved s).run).run b = (.ok r, b) := by
  simp only [reserved, run_bind, run_get, hr, run_arith_ok]

/-- A check of a key's scope against an agreeing cache, with room for the books' amounts and
    the request, stands exactly where the figures say; it changes only the cache and leaves
    it agreeing. -/
theorem run_check_exact (h : CacheAgrees byAccount T b) {k : DimensionKey}
    (hT : BudgetScope.ofKey k byAccount ∉ T) {S : ℕ} {q : Decimal} (hroom : Room S (b.amounts ++ [q])) :
    ∃ r c, ((check (BudgetScope.ofKey k byAccount) q).run).run b = (.ok r, { b with cache := c }) ∧
      CacheAgrees byAccount T { b with cache := c } ∧
      r.vals = b.standing (BudgetScope.ofKey k byAccount) q.val := by
  obtain ⟨env, adj, u, rr, a, rest, av, henv, hadj, hu, hrr, ha, hrest, hav', -, havail, havs, hqs,
    hfit⟩ := available_exact hroom (BudgetScope.ofKey k byAccount)
  obtain ⟨c, hact⟩ := run_actual_of_agrees h hT hu
  obtain ⟨sh, hsh, hshv, -⟩ := sub_exact hqs havs hroom.scale_le (by rwa [add_comm])
  have hrun : ((check (BudgetScope.ofKey k byAccount) q).run).run b =
      (.ok { scope := BudgetScope.ofKey k byAccount, requested := q, allocated := a, actual := u,
             reserved := rr, available := av, ok := decide (q ≤ av),
             shortfall := if q ≤ av then Decimal.zero else sh }, { b with cache := c }) := by
    simp only [check, run_bind, run_allocated henv hadj ha, hact]
    rw [run_reserved (b := { b with cache := c }) hrr]
    simp only [hrest, hav', run_arith_ok]
    split
    · rename_i hle
      have hle' : q ≤ av := of_decide_eq_true hle
      simp only [hle', decide_true, if_true, run_bind, run_pure]
    · rename_i hle
      have hle' : ¬q ≤ av := fun h => hle (decide_eq_true h)
      simp only [hle', decide_false, if_false, run_bind, hsh, run_arith_ok, run_pure]
  refine ⟨_, c, hrun, ?_, ?_⟩
  · have := keepsAgree_check k q T b h
    rwa [hrun] at this
  · simp only [Availability.vals, standing, ← havail, Decimal.le_iff_val]
    split
    · simp
    · simp [hshv]

/-- Checking scopes of keys one after another against an agreeing cache: each check stands
    where the figures say, and the cache keeps agreeing. -/
theorem run_mapM_check {S : ℕ} :
    ∀ (ns : List (BudgetScope × Decimal)) {b : Books}, CacheAgrees byAccount [] b →
      (∀ n ∈ ns, (∃ k, n.1 = BudgetScope.ofKey k byAccount) ∧ Room S (b.amounts ++ [n.2])) →
      ∃ rs c, ((ns.mapM fun n => check n.1 n.2).run).run b = (.ok rs, { b with cache := c }) ∧
        CacheAgrees byAccount [] { b with cache := c } ∧
        rs.map Availability.vals = ns.map fun n => b.standing n.1 n.2.val
  | [], b, h, _ => ⟨[], b.cache, rfl, h, rfl⟩
  | n :: ns, b, h, hns => by
    obtain ⟨⟨k, hk⟩, hroom⟩ := hns n List.mem_cons_self
    obtain ⟨r, c, hrun, hc, hr⟩ := run_check_exact h (List.not_mem_nil (a := BudgetScope.ofKey k byAccount)) hroom
    -- the rest is checked against the books as they were, but for the cache
    obtain ⟨rs, c', hrun', hc', hrs⟩ := run_mapM_check ns hc fun m hm => by
      simpa using hns m (List.mem_cons_of_mem _ hm)
    refine ⟨r :: rs, c', ?_, hc', ?_⟩
    · rw [List.mapM_cons, run_bind, hk, hrun]
      simp only [run_bind, hrun', run_pure]
    · simp only [List.map_cons, hr, hrs, standing_cache, hk]

/-- Reading what a key's scope has available against an agreeing cache, with room for the
    books' amounts, answers the exact figure; it changes only the cache and keeps it agreeing. -/
theorem run_available_exact (h : CacheAgrees byAccount T b) {k : DimensionKey}
    (hT : BudgetScope.ofKey k byAccount ∉ T) {S : ℕ} (hroom : Room S b.amounts) :
    ∃ av c, ((available (BudgetScope.ofKey k byAccount)).run).run b =
        (.ok av, { b with cache := c }) ∧ CacheAgrees byAccount T { b with cache := c } ∧
      av.val = b.availableVal (BudgetScope.ofKey k byAccount) ∧ av.scale ≤ S := by
  obtain ⟨env, adj, u, rr, a, rest, av, henv, hadj, hu, hrr, ha, hrest, hav', -, havail, havs, -⟩ :=
    available_exact hroom.append_zero (BudgetScope.ofKey k byAccount)
  obtain ⟨c, hact⟩ := run_actual_of_agrees h hT hu
  have hrun : ((available (BudgetScope.ofKey k byAccount)).run).run b =
      (.ok av, { b with cache := c }) := by
    simp only [available, run_bind, run_allocated henv hadj ha, hact, hrest, run_arith_ok]
    rw [run_reserved (b := { b with cache := c }) hrr]
    simp only [hav', run_arith_ok]
  refine ⟨av, c, hrun, ?_, havail, havs⟩
  have := keepsAgree_available k T b h
  rwa [hrun] at this

/-- Reading what scopes of keys have available, one after another, against an agreeing cache:
    each read answers the exact figure of its scope, and the cache keeps agreeing. -/
theorem run_mapM_available {S : ℕ} :
    ∀ (scopes : List BudgetScope) {b : Books}, CacheAgrees byAccount [] b → Room S b.amounts →
      (∀ s ∈ scopes, ∃ k, s = BudgetScope.ofKey k byAccount) →
      ∃ avs c, ((scopes.mapM available).run).run b = (.ok avs, { b with cache := c }) ∧
        CacheAgrees byAccount [] { b with cache := c } ∧
        ∀ p ∈ scopes.zip avs, p.2.val = b.availableVal p.1 ∧ p.2.scale ≤ S
  | [], b, h, _, _ => ⟨[], b.cache, rfl, h, fun _ h => absurd h List.not_mem_nil⟩
  | s :: scopes, b, h, hroom, hof => by
    obtain ⟨k, rfl⟩ := hof s List.mem_cons_self
    obtain ⟨av, c, hrun, hc, hav, havs⟩ :=
      run_available_exact h (List.not_mem_nil (a := BudgetScope.ofKey k byAccount)) hroom
    -- the rest is read from the books as they were, but for the cache
    obtain ⟨avs, c', hrun', hc', hrest⟩ :=
      run_mapM_available scopes hc hroom fun t ht => hof t (List.mem_cons_of_mem _ ht)
    refine ⟨av :: avs, c', ?_, hc', fun p hp => ?_⟩
    · rw [List.mapM_cons, run_bind, hrun]
      simp only [run_bind, hrun', run_pure]
    · rw [List.zip_cons_cons] at hp
      rcases List.mem_cons.1 hp with rfl | hp
      · exact ⟨hav, havs⟩
      · -- the figures do not read the cache
        exact hrest p hp

end Books

end Encumbrance
