import Mathlib
import Encumbrance.Proofs.State.Status
import Encumbrance.Proofs.Control.Unchecked

/-! # A rejection undoes a reservation

    A document reserved and then rejected is back where it started. The reservation books one
    row per slice, perhaps several at one key and across many scopes; the release books one row
    per key, the document's whole outstanding reservation there. Before the reservation nothing
    was reserved, so what is outstanding after it is what it booked, key by key
    (`reach_outstanding`), and the two batches cancel at every key. A scope's reserved total is
    a sum over its keys, so every scope's figures are as they were
    (`Books.figures_of_cancelling`).

    The release goes through: each key it releases is a key the reservation booked, whose scope
    was free, and it books no more than the reservation did (`sum_abs_reservedAt_le`), so room
    for the books and the reservation once more is room for the release
    (`reject_after_reach_ok`).
-/

namespace Encumbrance

open Decimal

/-! ## Section 1: Rows that cancel key by key -/

namespace Books

/-- Rows that allocate nothing, and whose reserved and consumed sums are zero at every key,
    change none of a scope's figures. -/
theorem figures_of_cancelling {b b' : Books} {xs : List Entry}
    (henv : b'.envelopes = b.envelopes) (hposted : b'.posted = b.posted)
    (hfrom : b'.actualsFrom = b.actualsFrom) (hl : b'.ledger.entries = b.ledger.entries ++ xs)
    (halloc : ∀ x ∈ xs, x.entryType ∉ allocationTypes) (hres : ∀ k, reservedAt xs k = 0)
    (hcons : ∀ k, consumedAt xs k = 0) (s : BudgetScope) : b'.figures s = b.figures s := by
  have htot : ∀ types (w : Entry → Decimal), b'.ledger.totalVal s types w =
      b.ledger.totalVal s types w +
        ((xs.filter ({ scope := some s, types } : LedgerQuery).admits).map
          fun x => (w x).val).sum := by
    intro types w
    simp only [Ledger.totalVal, Ledger.select, hl, List.filter_append, List.map_append,
      List.sum_append]
  -- no row allocates
  have hA :
      xs.filter ({ scope := some s, types := allocationTypes } : LedgerQuery).admits = [] := by
    refine List.filter_eq_nil_iff.2 fun x hx hadm => halloc x hx ?_
    have hmem : s.contains x.key = true ∧ x.entryType ∈ allocationTypes := by
      simpa [LedgerQuery.admits, allocationTypes] using hadm
    exact hmem.2
  -- the reserved and the consumed rows cancel in every scope
  have hR : ((xs.filter ({ scope := some s, types := reservedTypes } : LedgerQuery).admits).map
      fun x => x.outflow.val).sum = 0 :=
    scope_sum_eq_zero_of_keys (by simp [reservedTypes])
      (fun k => by rw [← reservedAt_eq_sum_filter]; exact hres k) s
  have hC : ((xs.filter ({ scope := some s, types := consumedTypes } : LedgerQuery).admits).map
      fun x => (-x.outflow).val).sum = 0 :=
    scope_sum_eq_zero_of_keys (by simp [consumedTypes])
      (fun k => by rw [← consumedAt_eq_sum_filter]; exact hcons k) s
  unfold figures availableVal actualVal
  rw [henv, hposted, hfrom]
  cases b.actualsFrom <;>
    simp only [htot, hA, hR, hC, List.map_nil, List.sum_nil, add_zero]

end Books

/-! ## Section 2: What a reservation leaves outstanding -/

namespace Engine

variable {e e₁ e₂ : Engine} {document : SourceDocument} {context : EventContext}
  {u u' : StatusUpdate} {S : ℕ}

/-- A reservation that applied found the scope of each of its rows free. -/
theorem run_reach_free
    (h : ((onReachTargetState document context).run).run e = (.ok (.applied u), e₁))
    (hroom : Room S (u.entries.map Entry.amount)) :
    ∀ x ∈ u.entries, e.scopeOf x.key ∉ e.books.locks.held := by
  obtain ⟨ps, slices, es, sh, hen, hst, hps, hun, hsl, hne, happ, -, rfl⟩ := run_reach_applied h
  rw [run_onReachTargetState, reachPlan_eq_checked hen hst hps hun hsl hne,
    Plan.run_exec_checked] at h
  exact (appendStep_checked _ _ _).free_of_rows h happ hroom

/-- After a reservation applied to a balanced history, the document has outstanding exactly
    what the reservation booked: at distinct keys, key by key. -/
theorem reach_outstanding (hinv : e.BalanceInv)
    (hroom : Room S (e₁.books.ledger.entries.map Entry.amount))
    (hpos : e₁.books.ledger.RowsPositive)
    (h : ((onReachTargetState document context).run).run e = (.ok (.applied u), e₁)) :
    ∃ out, outstandingReserved (e₁.history document.docRef) = .ok out ∧ out ≠ [] ∧
      (out.map (·.1)).Nodup ∧ (∀ q ∈ out, q.2.scale ≤ S ∧ q.2.val = reservedAt u.entries q.1) ∧
      ∀ k, amountAt out k = reservedAt u.entries k := by
  obtain ⟨ps, slices, es, sh, -, -, hps, hun, -, hne, happ, -, rfl⟩ := run_reach_applied h
  have hres : ∀ d ∈ slices.map (fun s : Slice =>
      EntryDraft.make s.key .reservation s.amount document.docRef document.postingDate),
      d.entryType = .reservation := by
    simp [EntryDraft.make]
  have hb := hinv.history document.docRef
  obtain ⟨hw, hhist⟩ := history_append_own (D := document.docRef) hinv.fresh happ (by simp)
  have hroomH₁ : Room S ((e₁.history document.docRef).map Entry.amount) :=
    hroom.sublist (List.filter_sublist.map Entry.amount)
  have hroomH : Room S ((e.history document.docRef).map Entry.amount) := by
    rw [hhist, List.map_append] at hroomH₁
    exact hroomH₁.sublist (List.sublist_append_left _ _)
  -- before the reservation nothing was reserved
  obtain ⟨ps', hps', hposs⟩ := positions_exact hroomH
  rw [hps] at hps'
  cases hps'
  have hR : ∀ k, reservedAt (e.history document.docRef) k = 0 := fun k =>
    le_antisymm ((hposs.deriveState_eq_unlocked.1 hun).1 k) (hb.reserved_nonneg k)
  have hsame : ∀ k, reservedAt (e₁.history document.docRef) k = reservedAt es k := fun k => by
    rw [hhist, reservedAt_append, hR k, zero_add]
  have hnn : ∀ k, 0 ≤ reservedAt es k := fun k => List.sum_nonneg fun r hr => by
    obtain ⟨y, hy, rfl⟩ := List.mem_map.1 hr
    exact EntryDraft.reservedIn_nonneg (hw.sound y hy) (by rw [hres _ (hw.mem_draft hy)]; simp)
  obtain ⟨out, hout, hamt, hempty⟩ := outstandingReserved_exact hroomH₁
  obtain ⟨hnd, hkeys⟩ := outstandingReserved_keys hroomH₁ hout
  -- the row of any slice is reserved, so something is outstanding
  obtain ⟨s, hs⟩ := List.exists_mem_of_ne_nil slices hne
  obtain ⟨x, hx, hxd⟩ := hw.exists_row (List.mem_map_of_mem hs)
  have hxpos : 0 < reservedAt (e₁.history document.docRef) x.key := by
    rw [hhist]
    exact hw.reservedAt_pos hb (fun d hd => by simp [hres d hd]) hx
      (by simpa using congrArg EntryDraft.entryType hxd) (hpos.of_append happ x hx)
  refine ⟨out, hout, fun hnil => absurd hxpos (not_lt.2 (hempty.1 hnil x.key)), hnd,
    fun q hq => ⟨(hkeys q hq).1, (hkeys q hq).2.trans (hsame q.1)⟩, fun k => ?_⟩
  rw [hamt k, hsame k]
  rcases (hnn k).lt_or_eq with hk | hk
  · exact if_pos hk
  · rw [if_neg (not_lt.2 hk.symm.le), hk]

/-! ## Section 3: The rejection -/

/-- A rejection right after a reservation goes through: each key it releases is a key the
    reservation booked, whose scope was free, and it books no more than the reservation did. -/
theorem reject_after_reach_ok (hinv : e.BalanceInv) (hagree : e₁.CacheAgrees)
    (hroom : Room S (e₁.books.amounts ++ u.entries.map Entry.amount))
    (hpos : e₁.books.ledger.RowsPositive)
    (h : ((onReachTargetState document context).run).run e = (.ok (.applied u), e₁)) :
    ∃ u' e₂, ((onRejectedOrReopened document).run).run e₁ = (.ok (.applied u'), e₂) ∧
      Room S (e₂.books.ledger.entries.map Entry.amount) := by
  have hroom₁ : Room S (e₁.books.ledger.entries.map Entry.amount) :=
    hroom.sublist ((Books.ledger_sublist_amounts _).trans (List.sublist_append_left _ _))
  obtain ⟨out, hout, hne, hnd, hkeys, -⟩ := reach_outstanding hinv hroom₁ hpos h
  obtain ⟨-, -, -, -, hen, -, -, -, -, -, -, hframe, -⟩ := run_reach_applied h
  rw [run_onRejectedOrReopened, rejectPlan_eq_unchecked (by rw [hframe.config]; exact hen) hout hne,
    Plan.run_exec_unchecked]
  generalize hds : out.map _ = ds
  have hmem : ∀ d ∈ ds, ∃ q ∈ out, d = EntryDraft.make q.1 .release q.2 document.docRef
      document.postingDate := by
    intro d hd
    rw [← hds] at hd
    obtain ⟨⟨k, a⟩, hq, rfl⟩ := List.mem_map.1 hd
    exact ⟨(k, a), hq, rfl⟩
  -- each key released was booked by a row of the reservation, whose scope was free
  have hfree : ∀ d ∈ ds, e₁.scopeOf d.key ∉ e₁.books.locks.held := by
    intro d hd
    obtain ⟨q, hq, rfl⟩ := hmem d hd
    have hq0 : reservedAt u.entries q.1 ≠ 0 := by
      rw [← (hkeys q hq).2]
      exact (outstandingReserved_pos hout q hq).ne'
    obtain ⟨x, hx, hxk⟩ : ∃ x ∈ u.entries, x.key = q.1 := by
      by_contra hnone
      exact hq0 (reservedAt_of_not_mem fun x hx hxk => hnone ⟨x, hx, hxk⟩)
    have hxfree := run_reach_free h (hroom.sublist (List.sublist_append_right _ _)) x hx
    rw [hxk] at hxfree
    simpa [scopeOf, EntryDraft.make, hframe.config, hframe.held] using hxfree
  have hvalid : validateBatch ds = .ok () := by
    refine validateBatch_of_sound (by rw [← hds]; simpa using hne) (fun d hd => ?_) fun d hd => ?_
    · obtain ⟨q, hq, rfl⟩ := hmem d hd
      exact EntryDraft.validate_make _ _ _ _ (outstandingReserved_pos hout q hq).le
    · obtain ⟨q, hq, rfl⟩ := hmem d hd
      simp [EntryDraft.make]
  -- the release weighs what is outstanding, which is no more than the reservation
  have hweigh : ((ds.map EntryDraft.amount).map fun z => |z.val|).sum =
      ((out.map (·.1)).map fun k => |reservedAt u.entries k|).sum := by
    rw [← hds, List.map_map, List.map_map, List.map_map]
    congr 1
    exact List.map_congr_left fun q hq => by cases q; simp [EntryDraft.make, (hkeys _ hq).2]
  have hroom₂ : Room S (e₁.books.amounts ++ ds.map EntryDraft.amount) := by
    refine hroom.trade (fun z hz => ?_) ?_
    · obtain ⟨d, hd, rfl⟩ := List.mem_map.1 hz
      obtain ⟨q, hq, rfl⟩ := hmem d hd
      exact (hkeys q hq).1
    · calc ((ds.map EntryDraft.amount).map fun z => |z.val|).sum
          = ((out.map (·.1)).map fun k => |reservedAt u.entries k|).sum := hweigh
        _ ≤ magnitude u.entries := sum_abs_reservedAt_le hnd u.entries
        _ = ((u.entries.map Entry.amount).map fun y => |y.val|).sum := by
          rw [magnitude, List.map_map]
          rfl
  obtain ⟨⟨es, sh⟩, e₂, hrun, hroom₃⟩ := run_appendUnchecked_ok hagree hfree hvalid hroom₂ _
  exact ⟨_, e₂, hrun, hroom₃⟩

/-- A rejection right after a reservation leaves every scope's figures as they were before
    the reservation: key by key, the release books back what the reservation booked. -/
theorem reject_after_reach_figures (hinv : e.BalanceInv)
    (hroom : Room S (e₁.books.ledger.entries.map Entry.amount))
    (hpos : e₁.books.ledger.RowsPositive)
    (h : ((onReachTargetState document context).run).run e = (.ok (.applied u), e₁))
    (hrej : ((onRejectedOrReopened document).run).run e₁ = (.ok (.applied u'), e₂))
    (s : BudgetScope) : e₂.books.figures s = e.books.figures s := by
  obtain ⟨out, hout, -, -, -, hamt⟩ := reach_outstanding hinv hroom hpos h
  obtain ⟨out', rel, -, hout', -, happ', hframe', -⟩ := run_reject_applied hrej
  rw [hout] at hout'
  cases hout'
  obtain ⟨-, slices, res, sh, -, -, -, -, -, -, happ, hframe, hu⟩ := run_reach_applied h
  rw [hu] at hamt
  -- the release's reserved sum is minus what is outstanding, key by key
  have hrel : ∀ k, reservedAt rel k = -1 * amountAt out k := fun k => by
    calc reservedAt rel k = ((rel.map Entry.draft).map (·.reservedIn k)).sum := by
          rw [List.map_map]
          rfl
      _ = -1 * amountAt out k := by
          rw [Ledger.append_drafts happ']
          exact sum_map_keyed fun q => by cases q; simp
  have hframe₂ := hframe.trans hframe'
  have hl : e₂.books.ledger.entries = e.books.ledger.entries ++ (res ++ rel) := by
    rw [Ledger.append_entries happ', Ledger.append_entries happ, List.append_assoc]
  -- reservations, then releases
  have htype : ∀ x ∈ res ++ rel, x.entryType = .reservation ∨ x.entryType = .release := by
    intro x hx
    have hxd : x.draft ∈ (res ++ rel).map Entry.draft := List.mem_map_of_mem hx
    rw [List.map_append, Ledger.append_drafts happ, Ledger.append_drafts happ'] at hxd
    rcases List.mem_append.1 hxd with hxd | hxd
    · obtain ⟨sl, -, hsl⟩ := List.mem_map.1 hxd
      exact .inl (by simpa using (congrArg EntryDraft.entryType hsl).symm)
    · obtain ⟨⟨k, a⟩, -, hq⟩ := List.mem_map.1 hxd
      exact .inr (by simpa using (congrArg EntryDraft.entryType hq).symm)
  refine Books.figures_of_cancelling hframe₂.envelopes hframe₂.posted hframe₂.actualsFrom hl
    (fun x hx => by rcases htype x hx with h | h <;> simp [h, allocationTypes])
    (fun k => ?_) (fun k => ?_) s
  · rw [reservedAt_append, hrel k, hamt k]
    ring
  · -- neither kind of row consumes
    refine List.sum_eq_zero fun r hr => ?_
    obtain ⟨x, hx, rfl⟩ := List.mem_map.1 hr
    exact EntryDraft.consumedIn_of_not_mem
      (by rcases htype x hx with h | h <;> simp [h, consumedTypes])

/-! ## Section 4: Along a run -/

/-- What a run from an empty ledger and cache keeps, before and after its next request, while
    the amounts after it have room: balanced histories, positive rows and an agreeing cache. -/
theorem step_invariants {e₀ : Engine} (h₀ : e₀.books.ledger = {})
    (hc₀ : e₀.books.cache.slots = []) (cs : List Request) (c : Request)
    (hroom : Room S ((c.step (Request.runAll cs e₀)).books.ledger.entries.map Entry.amount)) :
    (Request.runAll cs e₀).BalanceInv ∧ (c.step (Request.runAll cs e₀)).BalanceInv ∧
      (c.step (Request.runAll cs e₀)).books.ledger.RowsPositive ∧
      (c.step (Request.runAll cs e₀)).CacheAgrees := by
  have hroom₀ := hroom.sublist ((Request.step_extends _ _).sublist.map Entry.amount)
  rw [← Request.runAll_append] at hroom ⊢
  exact ⟨Engine.BalanceInv.runAll cs (balanceInv_of_empty h₀) hroom₀,
    Engine.BalanceInv.runAll _ (balanceInv_of_empty h₀) hroom,
    Request.runAll_rowsPositive _ (by rw [h₀]; exact Ledger.rowsPositive_empty),
    Request.runAll_cacheAgrees _ (cacheAgrees_of_empty hc₀)⟩

/-- **A rejection undoes a reservation.** Along every run from an empty ledger and cache, when
    a document's reservation applies and the document is rejected right after: the rejection
    applies and reports the release, the document's summary shows it unlocked, and every
    scope's allocated, actual, reserved and available figures are what they were before the
    reservation. Room for the books and the reservation once more is room for exact sums. -/
theorem reserve_reject_round_trip {e₀ : Engine} (h₀ : e₀.books.ledger = {})
    (hc₀ : e₀.books.cache.slots = []) (cs : List Request) (document : SourceDocument)
    (context : EventContext) {u : StatusUpdate} {e₁ : Engine}
    (hreach : ((onReachTargetState document context).run).run (Request.runAll cs e₀) =
      (.ok (.applied u), e₁))
    {S : ℕ} (hroom : Room S (e₁.books.amounts ++ u.entries.map Entry.amount)) :
    ∃ u' e₂, ((onRejectedOrReopened document).run).run e₁ = (.ok (.applied u'), e₂) ∧
      u'.status = .released ∧
      (∃ sm, ((summary document.docRef).run).run e₂ = (.ok sm, e₂) ∧ sm.state = .unlocked) ∧
      ∀ s, e₂.books.figures s = (Request.runAll cs e₀).books.figures s := by
  -- the reservation is the run's next request, and it ends in `e₁`
  have hstep : (Request.event (.reachedTargetState document context)).step
      (Request.runAll cs e₀) = e₁ := by
    simp only [Request.step, Request.run, handle, run_map, hreach]
  have hroom₁ : Room S (e₁.books.ledger.entries.map Entry.amount) :=
    hroom.sublist ((Books.ledger_sublist_amounts _).trans (List.sublist_append_left _ _))
  -- the invariants of the run, before and after the reservation
  have hinvs := step_invariants h₀ hc₀ cs _ (by rw [hstep]; exact hroom₁)
  rw [hstep] at hinvs
  obtain ⟨hinv, hinv₁, hpos₁, hagree₁⟩ := hinvs
  obtain ⟨u', e₂, hrej, hroom₂⟩ := reject_after_reach_ok hinv hagree₁ hroom hpos₁ hreach
  have hstatus : u'.status = .released := by
    obtain ⟨_, _, _, _, _, _, _, rfl⟩ := run_reject_applied hrej
    rfl
  -- the summary reads the positions of the history after the release
  obtain ⟨-, hshows⟩ := reject_applied_shows hinv₁ hroom₁ hrej
  obtain ⟨ps, hps, hposs⟩ := positions_exact
    (hroom₂.sublist (List.filter_sublist.map Entry.amount) :
      Room S ((e₂.history document.docRef).map Entry.amount))
  refine ⟨u', e₂, hrej, hstatus, ⟨_, run_summary hps, ?_⟩,
    reject_after_reach_figures hinv hroom₁ hpos₁ hreach hrej⟩
  rw [hposs.deriveState_of_shows hshows, hstatus]
  rfl

/-- An order funded with a cent, reserved and then rejected: the rejection applies and
    reports the release, the order is unlocked again and every figure is as it was. -/
theorem rejected_order_restores_figures :
    ∃ u e₁, ((onReachTargetState
          { docRef := ⟨"Purchase Order", "PO-1"⟩, company := some "ACME",
            fiscalPeriod := some "FY2026", costCenter := "CC-OPS", postingDate := ⟨2026, 1, 1⟩,
            workflowState := "Approved", lines := [⟨"6100", Decimal.cent⟩] } {}).run).run
        (Request.runAll [.supplement ⟨"ACME", "FY2026", "CC-OPS", "6100", none, none⟩ Decimal.cent
          ⟨"Budget", "B-1"⟩ ⟨2026, 1, 1⟩] {}) = (.ok (.applied u), e₁) ∧
      Room 2 (e₁.books.amounts ++ u.entries.map Entry.amount) ∧
      ∃ u' e₂, ((onRejectedOrReopened
            { docRef := ⟨"Purchase Order", "PO-1"⟩, company := some "ACME",
              fiscalPeriod := some "FY2026", costCenter := "CC-OPS", postingDate := ⟨2026, 1, 1⟩,
              workflowState := "Approved", lines := [⟨"6100", Decimal.cent⟩] }).run).run e₁ =
          (.ok (.applied u'), e₂) ∧ u'.status = .released ∧
        (∃ sm, ((summary ⟨"Purchase Order", "PO-1"⟩).run).run e₂ = (.ok sm, e₂) ∧
          sm.state = .unlocked) ∧
        ∀ s, e₂.books.figures s =
          (Request.runAll [.supplement ⟨"ACME", "FY2026", "CC-OPS", "6100", none, none⟩
            Decimal.cent ⟨"Budget", "B-1"⟩ ⟨2026, 1, 1⟩] {}).books.figures s := by
  -- the reservation is evaluated once, by the kernel, and its result named
  generalize hrun : ((onReachTargetState _ _).run).run _ = r
  have hstatus : r.1.toOption.bind Outcome.status? = some .locked := by
    rw [← hrun]
    decide +kernel
  have hroom : Room 2 (r.2.books.amounts ++
      ((r.1.toOption.map Outcome.entries).getD []).map Entry.amount) := by
    rw [← hrun]
    exact ⟨by decide, by decide +kernel, by decide +kernel⟩
  rcases r with ⟨_ | _ | _ | _, e₁⟩ <;> simp [Except.toOption, Outcome.status?] at hstatus
  exact ⟨_, e₁, rfl, hroom, reserve_reject_round_trip rfl rfl _ _ _ hrun hroom⟩

end Engine

end Encumbrance
