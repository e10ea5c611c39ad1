import Mathlib
import Encumbrance.Proofs.Availability.Figures
import Encumbrance.Proofs.Ledger.Built

/-! # The availability formula

    The calculator reads three totals of a scope's rows off the ledger, each over some types
    and with the outflow signed its own way: the allocation adjustment (inflow of supplements
    and reclasses), the actual spend (inflow of consumptions and reversals) and the reserved
    amount (outflow of reservations and releases). On a ledger that appends built, every row
    of a type with a fixed direction goes that way, so each total is a plain signed sum of
    amounts by type:

        allocated = envelope + SUPPLEMENT + RECLASS in - RECLASS out
        actual    = CONSUMPTION - REVERSAL
        reserved  = RESERVATION - RELEASE
        available = allocated - actual - reserved

    With the actual spend read from the ledger and no cache, and room for exact sums, the
    calculator reports exactly these figures (`Books.availability_formula`). As sums they do not
    depend on the order of the rows, and rows of spending leave the reserved figure alone.
-/

namespace Encumbrance

open Decimal

/-! ## Section 1: Sums of amounts by type -/

namespace Ledger

/-- The amounts, added up exactly, of the rows of a scope that `p` selects. -/
def amountIn (l : Ledger) (s : BudgetScope) (p : Entry → Bool) : ℚ :=
  ((l.entries.filter fun x => s.contains x.key && p x).map fun x => x.amount.val).sum

/-- What the rows of one type in a scope add up to. -/
def typeSum (l : Ledger) (s : BudgetScope) (t : EntryType) : ℚ := l.amountIn s (·.entryType == t)

/-- What the reclass rows of a scope going one way add up to. -/
def reclassSum (l : Ledger) (s : BudgetScope) (dir : Direction) : ℚ :=
  l.amountIn s fun x => x.entryType == .reclass && x.direction == dir

end Ledger

/-- A sum over the members a predicate selects is the sum of each member's share, when the
    share of a member it passes over is zero. -/
theorem sum_filter_eq {α : Type} (xs : List α) (p : α → Bool) (f g : α → ℚ)
    (h : ∀ x ∈ xs, (if p x then f x else 0) = g x) : ((xs.filter p).map f).sum = (xs.map g).sum := by
  induction xs with
  | nil => rfl
  | cons x xs ih =>
    have hx := h x List.mem_cons_self
    rw [List.map_cons, List.sum_cons, ← hx, ← ih fun y hy => h y (List.mem_cons_of_mem _ hy)]
    by_cases hp : p x = true <;> simp [hp]

theorem sum_map_sub_distrib {α : Type} (xs : List α) (f g : α → ℚ) :
    (xs.map fun x => f x - g x).sum = (xs.map f).sum - (xs.map g).sum := by
  induction xs with
  | nil => simp
  | cons x xs ih =>
    simp only [List.map_cons, List.sum_cons, ih]
    ring

namespace Ledger

variable (l : Ledger) (s : BudgetScope)

theorem amountIn_eq_shares (p : Entry → Bool) :
    l.amountIn s p = (l.entries.map fun x => if s.contains x.key && p x then x.amount.val else 0).sum :=
  sum_filter_eq _ _ _ _ fun _ _ => rfl

theorem totalVal_eq_shares (types : List EntryType) (w : Entry → Decimal) :
    l.totalVal s types w = (l.entries.map fun x =>
      if ({ scope := some s, types } : LedgerQuery).admits x then (w x).val else 0).sum :=
  sum_filter_eq _ _ _ _ fun _ _ => rfl

/-- The same rows in another order add up to the same amounts. -/
theorem amountIn_perm {l' : Ledger} (h : l'.entries.Perm l.entries) (p : Entry → Bool) :
    l'.amountIn s p = l.amountIn s p :=
  ((h.filter _).map _).sum_eq

end Ledger

/-! ## Section 2: What one row adds to each total -/

namespace Entry

variable {x : Entry}

theorem Directed.direction_eq (h : x.Directed) {t : EntryType} (ht : x.entryType = t) {dir : Direction}
    (hdir : t.fixedDirection = some dir) : x.direction = dir :=
  h dir (ht ▸ hdir)

/-- The outflow of a row that goes the way its type demands: its amount for reservations and
    reversals, less its amount for releases, consumptions and supplements, and either for a
    reclass, by its direction. -/
theorem Directed.outflow_val (h : x.Directed) :
    x.outflow.val = match x.entryType with
      | .reservation | .reversal => x.amount.val
      | .release | .consumption | .supplement => -x.amount.val
      | .reclass => if x.direction = .out then x.amount.val else -x.amount.val := by
  rw [Entry.outflow_val]
  cases ht : x.entryType
  case reclass => rfl
  all_goals simp [h.direction_eq ht rfl]

/-- A reservation adds its amount to the reserved total, and a release takes it off. -/
theorem Directed.reserved_share (h : x.Directed) (s : BudgetScope) :
    (if ({ scope := some s, types := reservedTypes } : LedgerQuery).admits x then x.outflow.val else 0) =
      (if s.contains x.key && x.entryType == .reservation then x.amount.val else 0) -
        (if s.contains x.key && x.entryType == .release then x.amount.val else 0) := by
  cases hs : s.contains x.key <;> cases ht : x.entryType <;>
    simp [LedgerQuery.admits, reservedTypes, hs, ht, h.outflow_val]

/-- A consumption adds its amount to the spend, and a reversal takes it off. -/
theorem Directed.consumed_share (h : x.Directed) (s : BudgetScope) :
    (if ({ scope := some s, types := consumedTypes } : LedgerQuery).admits x then (-x.outflow).val
      else 0) =
      (if s.contains x.key && x.entryType == .consumption then x.amount.val else 0) -
        (if s.contains x.key && x.entryType == .reversal then x.amount.val else 0) := by
  cases hs : s.contains x.key <;> cases ht : x.entryType <;>
    simp [LedgerQuery.admits, consumedTypes, hs, ht, h.outflow_val]

/-- A supplement and a reclass coming in add their amounts to the allocation, and a reclass
    going out takes its amount off. -/
theorem Directed.allocation_share (h : x.Directed) (s : BudgetScope) :
    (if ({ scope := some s, types := allocationTypes } : LedgerQuery).admits x then (-x.outflow).val
      else 0) =
      (if s.contains x.key && x.entryType == .supplement then x.amount.val else 0) +
        (if s.contains x.key && (x.entryType == .reclass && x.direction == .inbound) then
          x.amount.val else 0) -
        (if s.contains x.key && (x.entryType == .reclass && x.direction == .out) then
          x.amount.val else 0) := by
  cases hs : s.contains x.key <;> cases ht : x.entryType <;>
    simp [LedgerQuery.admits, allocationTypes, hs, ht, h.outflow_val]
  -- a reclass row goes either way
  cases x.direction <;> simp

end Entry

/-! ## Section 3: The totals as signed sums by type -/

namespace Ledger

variable {l : Ledger} (s : BudgetScope)

theorem reservedVal_eq (h : ∀ x ∈ l.entries, x.Directed) :
    l.totalVal s reservedTypes Entry.outflow = l.typeSum s .reservation - l.typeSum s .release := by
  rw [totalVal_eq_shares, typeSum, typeSum, amountIn_eq_shares, amountIn_eq_shares,
    ← sum_map_sub_distrib]
  exact congrArg List.sum (List.map_congr_left fun x hx => (h x hx).reserved_share s)

theorem consumedVal_eq (h : ∀ x ∈ l.entries, x.Directed) :
    l.totalVal s consumedTypes (fun x => -x.outflow) =
      l.typeSum s .consumption - l.typeSum s .reversal := by
  rw [totalVal_eq_shares, typeSum, typeSum, amountIn_eq_shares, amountIn_eq_shares,
    ← sum_map_sub_distrib]
  exact congrArg List.sum (List.map_congr_left fun x hx => (h x hx).consumed_share s)

theorem adjustmentVal_eq (h : ∀ x ∈ l.entries, x.Directed) :
    l.totalVal s allocationTypes (fun x => -x.outflow) =
      l.typeSum s .supplement + l.reclassSum s .inbound - l.reclassSum s .out := by
  rw [totalVal_eq_shares, typeSum, reclassSum, reclassSum, amountIn_eq_shares, amountIn_eq_shares,
    amountIn_eq_shares, ← List.sum_map_add, ← sum_map_sub_distrib]
  exact congrArg List.sum (List.map_congr_left fun x hx => (h x hx).allocation_share s)

/-- Appending rows of spending leaves the reserved total as it was: it reads other rows. -/
theorem reservedTotal_append_spending {ds : List EntryDraft} {es : List Entry} {l' : Ledger}
    (happ : l.append ds = .ok (es, l')) (hspend : ∀ d ∈ ds, d.entryType ∈ consumedTypes) :
    l'.reservedTotal s = l.reservedTotal s := by
  have hnone : es.filter ({ scope := some s, types := reservedTypes } : LedgerQuery).admits = [] := by
    refine List.filter_eq_nil_iff.2 fun x hx => ?_
    have hx' := hspend x.draft (append_drafts happ ▸ List.mem_map_of_mem hx)
    simp only [consumedTypes, List.mem_cons, List.not_mem_nil, or_false, Entry.draft_entryType] at hx'
    rcases hx' with ht | ht <;> simp [LedgerQuery.admits, reservedTypes, ht]
  unfold reservedTotal total
  rw [select_append happ, hnone, List.append_nil]

end Ledger

/-! ## Section 4: What the calculator reports -/

namespace Books

variable {b : Books}

theorem envelopes_sublist_amounts (b : Books) : (b.envelopes.entries.map (·.2)).Sublist b.amounts :=
  (List.sublist_append_left _ _).trans (List.sublist_append_left _ _)

/-- With room for the books' amounts, each total the books hold is its exact sum. -/
theorem figure_vals {S : ℕ} (hroom : Room S b.amounts) (s : BudgetScope) {env adj u r : Decimal}
    (henv : b.envelopes.allocated s = .ok env) (hadj : b.ledger.allocationAdjustment s = .ok adj)
    (hu : b.liveActual s = .ok u) (hr : b.ledger.reservedTotal s = .ok r) :
    env.val = scopeSumVal b.envelopes.entries s ∧
      adj.val = b.ledger.totalVal s allocationTypes (fun x => -x.outflow) ∧
      u.val = b.actualVal s ∧ r.val = b.ledger.totalVal s reservedTypes Entry.outflow := by
  have hL := hroom.sublist b.ledger_sublist_amounts
  obtain ⟨env', henv', henvv, -⟩ := scopeSum_exact (hroom.sublist b.envelopes_sublist_amounts) s
  obtain ⟨adj', hadj', hadjv, -⟩ := Ledger.total_exact hL s allocationTypes
    (fun e => -e.outflow) (fun x => by simp [Entry.abs_outflow]) (fun x => Entry.outflow_scale x)
  obtain ⟨r', hr', hrv, -⟩ := Ledger.total_exact hL s reservedTypes
    Entry.outflow Entry.abs_outflow Entry.outflow_scale
  -- the spend is read from the postings or from the ledger's spending rows
  have huv : u.val = b.actualVal s := by
    unfold liveActual at hu
    unfold actualVal
    cases hfrom : b.actualsFrom with
    | posted =>
      have hP : (b.posted.entries.map (·.2)).Sublist b.amounts := List.sublist_append_right _ _
      obtain ⟨p, hp, hpv, -⟩ := scopeSum_exact (hroom.sublist hP) s
      rw [hfrom] at hu
      rw [← hpv, ← Except.ok.inj (hu.symm.trans hp)]
    | ledger =>
      obtain ⟨c, hc, hcv, -⟩ := Ledger.total_exact hL s consumedTypes
        (fun e => -e.outflow) (fun x => by simp [Entry.abs_outflow]) (fun x => Entry.outflow_scale x)
      rw [hfrom] at hu
      rw [← hcv, ← Except.ok.inj (hu.symm.trans hc)]
  refine ⟨?_, ?_, huv, ?_⟩
  · rw [← henvv, ← Except.ok.inj (henv.symm.trans henv')]
  · rw [← hadjv, ← Except.ok.inj (hadj.symm.trans hadj')]
  · rw [← hrv, ← Except.ok.inj (hr.symm.trans hr')]

/-- The four figures a scope's reads report, allocated, actual, reserved and available: each read
    succeeds, leaves the books as they were and gives that figure. -/
def Reports (b : Books) (s : BudgetScope) (a u r av : ℚ) : Prop :=
  ∃ a' u' r' av' : Decimal,
    ((allocated s).run).run b = (.ok a', b) ∧ ((actual s).run).run b = (.ok u', b) ∧
      ((reserved s).run).run b = (.ok r', b) ∧ ((available s).run).run b = (.ok av', b) ∧
      a'.val = a ∧ u'.val = u ∧ r'.val = r ∧ av'.val = av

/-- With the cache off, the actual spend is read live and the books stay as they were. -/
theorem run_actual_off (hoff : b.cache.remembers = false) {s : BudgetScope} {u : Decimal}
    (hu : b.liveActual s = .ok u) : ((actual s).run).run b = (.ok u, b) := by
  simp only [actual, run_bind, run_get, hoff, Bool.not_false, if_true, hu, run_arith_ok]

/-- With the cache off and room for exact sums, the reads of any scope report the exact
    figures: envelope plus allocation adjustment, actual spend, reservations, and what is
    left. -/
theorem reports_exact (hoff : b.cache.remembers = false) {S : ℕ} (hroom : Room S b.amounts)
    (s : BudgetScope) :
    b.Reports s (scopeSumVal b.envelopes.entries s + b.ledger.totalVal s allocationTypes fun x => -x.outflow)
      (b.actualVal s) (b.ledger.totalVal s reservedTypes Entry.outflow) (b.availableVal s) := by
  obtain ⟨env, adj, u, r, a, rest, av, henv, hadj, hu, hr, ha, hrest, hav, hval, havail, -⟩ :=
    available_exact hroom.append_zero s
  obtain ⟨henvv, hadjv, huv, hrv⟩ := figure_vals hroom s henv hadj hu hr
  refine ⟨a, u, r, av, run_allocated henv hadj ha, run_actual_off hoff hu, run_reserved hr, ?_,
    by rw [hval, henvv, hadjv], huv, hrv, havail⟩
  simp only [available, run_bind, run_allocated henv hadj ha, run_actual_off hoff hu, hrest,
    run_arith_ok, run_reserved hr, hav]

/-- On a ledger whose rows go the way their types demand, the reads report the signed sums of
    amounts by type. -/
theorem reports_by_type (hdir : ∀ x ∈ b.ledger.entries, x.Directed) (hfrom : b.actualsFrom = .ledger)
    (hoff : b.cache.remembers = false) {S : ℕ} (hroom : Room S b.amounts) (s : BudgetScope) :
    b.Reports s (scopeSumVal b.envelopes.entries s + b.ledger.typeSum s .supplement +
        b.ledger.reclassSum s .inbound - b.ledger.reclassSum s .out)
      (b.ledger.typeSum s .consumption - b.ledger.typeSum s .reversal)
      (b.ledger.typeSum s .reservation - b.ledger.typeSum s .release)
      (scopeSumVal b.envelopes.entries s + b.ledger.typeSum s .supplement +
          b.ledger.reclassSum s .inbound - b.ledger.reclassSum s .out -
        (b.ledger.typeSum s .consumption - b.ledger.typeSum s .reversal) -
        (b.ledger.typeSum s .reservation - b.ledger.typeSum s .release)) := by
  have hreports := reports_exact hoff hroom s
  have hactual : b.actualVal s = b.ledger.typeSum s .consumption - b.ledger.typeSum s .reversal := by
    rw [actualVal, hfrom]
    exact Ledger.consumedVal_eq s hdir
  unfold availableVal at hreports
  rw [hactual, Ledger.adjustmentVal_eq s hdir, Ledger.reservedVal_eq s hdir] at hreports
  convert hreports using 1 <;> ring

/-- **The availability formula.** Take a ledger that appends built from the empty one, any
    envelopes, actual spend read from the ledger with no cache in front of it, and room for exact
    sums. For every scope, whose envelope is the sum of the envelopes of the keys it contains, the
    reads report

      allocated = envelope + supplements + reclasses in - reclasses out,
      actual = consumptions - reversals,  reserved = reservations - releases,
      available = allocated - actual - reserved,

    each a sum of the amounts, by type, of the rows whose key the scope contains. The same rows
    in any other order give the same report, and appending rows of spending leaves what the
    reserved read answers as it was. -/
theorem availability_formula {b : Books} (hbuilt : b.ledger.Built)
    (hfrom : b.actualsFrom = .ledger) (hoff : b.cache.remembers = false) {S : ℕ}
    (hroom : Room S b.amounts) (s : BudgetScope) :
    let a := scopeSumVal b.envelopes.entries s + b.ledger.typeSum s .supplement +
      b.ledger.reclassSum s .inbound - b.ledger.reclassSum s .out
    let u := b.ledger.typeSum s .consumption - b.ledger.typeSum s .reversal
    let r := b.ledger.typeSum s .reservation - b.ledger.typeSum s .release
    b.Reports s a u r (a - u - r) ∧
      (∀ l' : Ledger, l'.entries.Perm b.ledger.entries →
        ({ b with ledger := l' } : Books).Reports s a u r (a - u - r)) ∧
      (∀ (ds : List EntryDraft) (es : List Entry) (l' : Ledger), b.ledger.append ds = .ok (es, l') →
        (∀ d ∈ ds, d.entryType ∈ consumedTypes) →
        (((reserved s).run).run { b with ledger := l' }).1 = (((reserved s).run).run b).1) := by
  intro a u r
  have hdir := hbuilt.directed
  refine ⟨reports_by_type hdir hfrom hoff hroom s, fun l' hperm => ?_, fun ds es l' happ hspend => ?_⟩
  · -- the rows in another order still go their ways, and leave the same room
    have hdir' : ∀ x ∈ l'.entries, x.Directed := fun x hx => hdir x (hperm.mem_iff.1 hx)
    have hroom' : Room S ({ b with ledger := l' } : Books).amounts :=
      hroom.perm (((hperm.symm.map Entry.amount).append_left _).append_right _)
    have := reports_by_type (b := { b with ledger := l' }) hdir' hfrom hoff hroom' s
    simp only [Ledger.typeSum, Ledger.reclassSum, Ledger.amountIn_perm _ _ hperm] at this
    exact this
  · simp only [reserved, run_bind, run_get, Ledger.reservedTotal_append_spending s happ hspend]
    -- the read only reports the total, so the states it leaves behind do not matter
    cases b.ledger.reservedTotal s <;> rfl

/-- A travel envelope of 1000 with one reservation of 300 written against it: the reads report
    1000 allocated, nothing spent, 300 reserved and 700 left. -/
theorem travel_hold_reports :
    let travel : DimensionKey := ⟨"ACME", "FY2026", "CC-OPS", "6100-Travel", none, none⟩
    let hold := EntryDraft.make travel .reservation (Decimal.ofNat 300) ⟨"Purchase Order", "PO-1"⟩
      ⟨2026, 3, 10⟩
    let l : Ledger := { entries := [Entry.ofDraft hold 0 0 0], batches := 1 }
    let b : Books := { ledger := l, envelopes := EnvelopeBook.ofList [(travel, Decimal.ofNat 1000)] }
    ({} : Ledger).append [hold] = .ok (l.entries, l) ∧ Room 0 b.amounts ∧
      b.Reports (BudgetScope.ofKey travel true) 1000 0 300 700 := by
  intro travel hold l b
  have happ : ({} : Ledger).append [hold] = .ok (l.entries, l) := rfl
  have hroom : Room 0 b.amounts := ⟨by decide, by decide +kernel, by decide +kernel⟩
  have h := (availability_formula (Ledger.Built.append Ledger.Built.empty happ) rfl rfl hroom
    (BudgetScope.ofKey travel true)).1
  refine ⟨happ, hroom, ?_⟩
  convert h using 1 <;> decide +kernel

end Books

end Encumbrance
