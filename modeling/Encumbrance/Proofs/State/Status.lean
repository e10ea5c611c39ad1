import Mathlib
import Encumbrance.Proofs.Control.Applied

/-! # The status an applied event reports

    A lifecycle event that applies reports a lock status; the document summary derives a state
    from the document's positions. Along every run from an empty ledger the two agree: a lock or
    an allowed overrun leaves the document reserved, a consumption leaves it consumed and a
    release leaves it unlocked.

    Cancelling a secondary is the case that needs the run. It picks its status before it
    appends, from the other consumption and from what it restores, and the pick is right only
    because a document never holds a reservation and consumption at once (`Balanced.exclusive`).
-/

namespace Encumbrance

/-- The document state a lock status stands for. -/
def LockStatus.state : LockStatus → DocumentState
  | .locked | .overrunAllowed => .reserved
  | .consumed => .consumed
  | .released => .unlocked

/-! ## Section 1: The state a history shows -/

/-- The state a history's sums show, as `deriveState` reads it off the positions. -/
def Shows (xs : List Entry) : DocumentState → Prop
  | .reserved => ∃ k, 0 < reservedAt xs k
  | .consumed => (∀ k, reservedAt xs k ≤ 0) ∧ ∃ k, 0 < consumedAt xs k
  | .unlocked => (∀ k, reservedAt xs k ≤ 0) ∧ ∀ k, consumedAt xs k ≤ 0

theorem PositionsOf.deriveState_of_shows {S : ℕ} {xs : List Entry} {ps : List Position}
    (h : PositionsOf S xs ps) {st : DocumentState} (hs : Shows xs st) : deriveState ps = st := by
  cases st with
  | reserved => exact h.deriveState_eq_reserved.2 hs
  | consumed => exact h.deriveState_eq_consumed.2 hs
  | unlocked => exact h.deriveState_eq_unlocked.2 hs

/-- The state a history shows depends only on its sums. -/
theorem Shows.congr {xs ys : List Entry} (hR : ∀ k, reservedAt xs k = reservedAt ys k)
    (hC : ∀ k, consumedAt xs k = consumedAt ys k) {st : DocumentState} (hs : Shows xs st) :
    Shows ys st := by
  cases st <;> simpa only [Shows, hR, hC] using hs

/-- The derived state is the state the history shows. -/
theorem PositionsOf.shows_deriveState {S : ℕ} {xs : List Entry} {ps : List Position}
    (h : PositionsOf S xs ps) : Shows xs (deriveState ps) := by
  cases hst : deriveState ps with
  | reserved => exact h.deriveState_eq_reserved.1 hst
  | consumed => exact h.deriveState_eq_consumed.1 hst
  | unlocked => exact h.deriveState_eq_unlocked.1 hst

/-- Two histories with the same sums derive the same state. -/
theorem PositionsOf.deriveState_congr {S S' : ℕ} {xs ys : List Entry} {ps qs : List Position}
    (h : PositionsOf S xs ps) (h' : PositionsOf S' ys qs)
    (hR : ∀ k, reservedAt xs k = reservedAt ys k) (hC : ∀ k, consumedAt xs k = consumedAt ys k) :
    deriveState ps = deriveState qs :=
  (h'.deriveState_of_shows (h.shows_deriveState.congr hR hC)).symm

namespace Engine

/-- The summary of a document whose positions can be summed. -/
theorem run_summary {e : Engine} {d : DocumentRef} {ps : List Position}
    (h : positions (e.history d) = .ok ps) :
    ((summary d).run).run e =
      (.ok { document := d, state := deriveState ps, positions := ps,
             entryCount := (e.history d).length }, e) := by
  simp only [summary, positionsOf, run_bind, run_get, h, run_arith_ok, run_pure]

end Engine

/-! ## Section 2: What one row of a batch shows -/

section Rows

variable {H es : List Entry} {ds : List EntryDraft}

theorem Written.exists_row (hw : Written H ds es) {d : EntryDraft} (hd : d ∈ ds) :
    ∃ x ∈ es, x.draft = d := by
  rw [← hw.drafts] at hd
  exact List.mem_map.1 hd

/-- A positive reservation row of a batch without releases leaves its key reserved. -/
theorem Written.reservedAt_pos (hb : Balanced H) (hw : Written H ds es)
    (hrel : ∀ d ∈ ds, d.entryType ≠ .release) {x : Entry} (hx : x ∈ es)
    (ht : x.entryType = .reservation) (hpos : 0 < x.amount.val) :
    0 < reservedAt (H ++ es) x.key := by
  have hnn : ∀ q ∈ es.map fun y => y.draft.reservedIn x.key, 0 ≤ q := by
    intro q hq
    obtain ⟨y, hy, rfl⟩ := List.mem_map.1 hq
    exact EntryDraft.reservedIn_nonneg (hw.sound y hy) (hrel _ (hw.mem_draft hy))
  have hx' : x.draft.reservedIn x.key = x.amount.val := by
    simp [EntryDraft.reservedIn_of_reservation (hw.sound x hx) (by simpa using ht)]
  calc 0 < x.draft.reservedIn x.key := hx' ▸ hpos
    _ ≤ reservedAt es x.key := List.single_le_sum hnn _ (List.mem_map_of_mem hx)
    _ ≤ reservedAt (H ++ es) x.key := by
      rw [reservedAt_append]
      linarith [hb.reserved_nonneg x.key]

/-- A positive consumption row of a batch without reversals makes the batch consume at its
    key. -/
theorem Written.consumedAt_batch_pos (hw : Written H ds es)
    (hrev : ∀ d ∈ ds, d.entryType ≠ .reversal) {x : Entry} (hx : x ∈ es)
    (ht : x.entryType = .consumption) (hpos : 0 < x.amount.val) :
    0 < consumedAt es x.key := by
  have hnn : ∀ q ∈ es.map fun y => y.draft.consumedIn x.key, 0 ≤ q := by
    intro q hq
    obtain ⟨y, hy, rfl⟩ := List.mem_map.1 hq
    exact EntryDraft.consumedIn_nonneg (hw.sound y hy) (hrev _ (hw.mem_draft hy))
  have hx' : x.draft.consumedIn x.key = x.amount.val := by
    simp [EntryDraft.consumedIn_of_consumption (hw.sound x hx) (by simpa using ht)]
  calc 0 < x.draft.consumedIn x.key := hx' ▸ hpos
    _ ≤ consumedAt es x.key := List.single_le_sum hnn _ (List.mem_map_of_mem hx)

/-- A positive consumption row of a batch without reversals leaves its key consumed. -/
theorem Written.consumedAt_pos (hb : Balanced H) (hw : Written H ds es)
    (hrev : ∀ d ∈ ds, d.entryType ≠ .reversal) {x : Entry} (hx : x ∈ es)
    (ht : x.entryType = .consumption) (hpos : 0 < x.amount.val) :
    0 < consumedAt (H ++ es) x.key := by
  have hes := hw.consumedAt_batch_pos hrev hx ht hpos
  rw [consumedAt_append]
  linarith [hb.consumedAt_nonneg x.key]

end Rows

/-- The rows an append wrote to a ledger of positive rows are positive. -/
theorem Ledger.RowsPositive.of_append {l l' : Ledger} {ds : List EntryDraft} {es : List Entry}
    (hpos : l'.RowsPositive) (happ : l.append ds = .ok (es, l')) : ∀ x ∈ es, 0 < x.amount.val :=
  fun x hx => hpos x (by rw [Ledger.append_entries happ]; exact List.mem_append_right _ hx)

/-! ## Section 3: Each event

    Each lemma reads the batch off the event's inversion lemma and shows what the history with
    it appended shows. The history before is balanced and has room for exact sums; the ledger
    after has positive rows only. -/

namespace Engine

variable {e e' : Engine} {document : SourceDocument} {u : StatusUpdate} {S : ℕ}

/-- A reach applied: the document holds the reservation it just wrote. -/
theorem reach_applied_shows {context : EventContext} (hinv : e.BalanceInv)
    (hpos : e'.books.ledger.RowsPositive)
    (h : ((onReachTargetState document context).run).run e = (.ok (.applied u), e')) :
    u.document = document.docRef ∧ Shows (e'.history document.docRef) u.status.state := by
  obtain ⟨-, slices, es, sh, -, -, -, -, -, hne, happ, -, rfl⟩ := run_reach_applied h
  obtain ⟨hw, hhist⟩ := history_append_own (D := document.docRef) hinv.fresh happ (by simp)
  -- the row of any slice is a positive reservation
  obtain ⟨s, hs⟩ := List.exists_mem_of_ne_nil slices hne
  obtain ⟨x, hx, hxd⟩ := hw.exists_row (List.mem_map_of_mem hs)
  have hres : Shows (e.history document.docRef ++ es) .reserved :=
    ⟨x.key, hw.reservedAt_pos (hinv.history _) (by simp) hx (by simpa using congrArg EntryDraft.entryType hxd)
      (hpos.of_append happ x hx)⟩
  refine ⟨rfl, ?_⟩
  rw [hhist]
  dsimp only
  split <;> exact hres

/-- A submission applied: the reservation is released and the consumption booked. -/
theorem submit_applied_shows {secondary : SecondaryDocument} {context : EventContext}
    (hinv : e.BalanceInv) (hroom : Decimal.Room S (e.books.ledger.entries.map Entry.amount))
    (hpos : e'.books.ledger.RowsPositive)
    (h : ((onSecondarySubmitted document secondary context).run).run e = (.ok (.applied u), e')) :
    u.document = document.docRef ∧ Shows (e'.history document.docRef) u.status.state := by
  obtain ⟨slices, out, es, sh, -, -, -, hne, hout, happ, -, rfl⟩ := run_submit_applied h
  obtain ⟨hw, hhist⟩ :=
    history_append_own (D := document.docRef) hinv.fresh happ submit_drafts_source
  have hb := hinv.history document.docRef
  have hroomH : Decimal.Room S ((e.history document.docRef).map Entry.amount) :=
    hroom.sublist (List.filter_sublist.map Entry.amount)
  -- releases and consumptions: no reversal, and only the releases touch the reserved sums
  have hR : ∀ k, reservedAt (e.history document.docRef ++ es) k = 0 :=
    hb.reservedAt_release_all hroomH hw hout (fun k => sum_map_keyed fun q => by cases q; simp)
      fun d hd => by
        obtain ⟨s, -, rfl⟩ := List.mem_map.1 hd
        simp [reservedTypes]
  -- the row of any slice is a positive consumption
  obtain ⟨s, hs⟩ := List.exists_mem_of_ne_nil slices hne
  obtain ⟨x, hx, hxd⟩ := hw.exists_row (List.mem_append_right _ (List.mem_map_of_mem hs))
  have hC := hw.consumedAt_pos hb submit_drafts_ne_reversal hx
    (by simpa using congrArg EntryDraft.entryType hxd) (hpos.of_append happ x hx)
  refine ⟨rfl, ?_⟩
  rw [hhist]
  exact ⟨fun k => (hR k).le, x.key, hC⟩

/-- A rejection applied: the reservation it releases was held, so nothing was consumed, and
    nothing stays reserved. -/
theorem reject_applied_shows (hinv : e.BalanceInv)
    (hroom : Decimal.Room S (e.books.ledger.entries.map Entry.amount))
    (h : ((onRejectedOrReopened document).run).run e = (.ok (.applied u), e')) :
    u.document = document.docRef ∧ Shows (e'.history document.docRef) u.status.state := by
  obtain ⟨out, es, -, hout, hne, happ, -, rfl⟩ := run_reject_applied h
  obtain ⟨hw, hhist⟩ := history_append_own (D := document.docRef) hinv.fresh happ fun d hd => by
    obtain ⟨_, -, rfl⟩ := List.mem_map.1 hd
    simp
  have hb := hinv.history document.docRef
  have hroomH : Decimal.Room S ((e.history document.docRef).map Entry.amount) :=
    hroom.sublist (List.filter_sublist.map Entry.amount)
  have hheld : ∃ k, 0 < reservedAt (e.history document.docRef) k := by
    have hempty := (outstandingReserved_spec hroomH hout).2
    simpa only [not_forall, not_le] using mt hempty.2 hne
  have hR : ∀ k, reservedAt (e.history document.docRef ++ es) k = 0 :=
    hb.reservedAt_release_all hroomH (by rwa [List.append_nil]) hout
      (fun k => sum_map_keyed fun q => by cases q; simp) fun d hd => absurd hd List.not_mem_nil
  -- releases consume nothing
  have hC : ∀ k, consumedAt (e.history document.docRef ++ es) k ≤ 0 := by
    intro k
    have h0 := hw.consumedAt_filter_eq_zero (fun d hd => by
      obtain ⟨_, -, rfl⟩ := List.mem_map.1 hd
      simp [consumedTypes]) (fun _ => true) k
    rw [List.filter_true] at h0
    rw [consumedAt_append, h0, add_zero]
    exact hb.exclusive hheld k
  refine ⟨rfl, ?_⟩
  rw [hhist]
  exact ⟨fun k => (hR k).le, hC⟩

/-- A cancellation applied: what it restores is reserved again; without a restore, what stays
    consumed is the consumption against the other documents. -/
theorem cancel_applied_shows {secondary : SecondaryDocument} (hinv : e.BalanceInv)
    (hroom : Decimal.Room S (e.books.ledger.entries.map Entry.amount))
    (hpos : e'.books.ledger.RowsPositive)
    (h : ((onSecondaryCancelled document secondary).run).run e = (.ok (.applied u), e')) :
    u.document = document.docRef ∧ Shows (e'.history document.docRef) u.status.state := by
  obtain ⟨reversed, others, restore, es, sh, -, hrev, hne, hothers, hrestore, happ, -, rfl⟩ :=
    run_cancel_applied h
  obtain ⟨hw, hhist⟩ :=
    history_append_own (D := document.docRef) hinv.fresh happ cancel_drafts_source
  set H := e.history document.docRef
  set sec := secondary.docRef
  have hb := hinv.history document.docRef
  have hroomH : Decimal.Room S (H.map Entry.amount) :=
    hroom.sublist (List.filter_sublist.map Entry.amount)
  have hsplit := consumedAt_against_split H (some sec)
  -- the consumption it reverses was held, so nothing was reserved
  have hunres : ∀ k, reservedAt H k ≤ 0 := by
    have hempty := (outstandingConsumedAgainst_spec hroomH hrev).2
    obtain ⟨k, hk⟩ : ∃ k, 0 < consumedAt (H.filter fun x => x.against = some sec) k := by
      simpa only [not_forall, not_le] using mt hempty.2 hne
    intro k'
    by_contra hk'
    have hC := hb.exclusive ⟨k', lt_of_not_ge hk'⟩ k
    linarith [hsplit k, hb.consumed_nonneg (fun a => a ≠ some sec) k]
  -- what stays consumed is the consumption against the other documents
  have hrest : ∀ k, consumedAt (H ++ es) k =
      consumedAt (H.filter fun x => x.against ≠ some sec) k := by
    intro k
    have hC := hw.consumedAt_cancel rfl (fun _ => true) k
    simp only [List.filter_true, if_true] at hC
    rw [hC, hb.amountAt_reversed hroomH hrev k, hsplit k, add_sub_cancel_left]
  -- whether there is any, as the positions of the other rows tell
  obtain ⟨os, hos, hposO⟩ := positions_exact (hroomH.sublist (List.filter_sublist.map Entry.amount))
  rw [hothers] at hos
  cases hos
  have hany := hposO.any_pos hposO.consumed fun _ => consumedAt_of_not_mem
  refine ⟨rfl, ?_⟩
  rw [hhist]
  dsimp only
  by_cases hres : restore = []
  · -- nothing restored: the status follows the other consumption
    have hR : ∀ k, reservedAt (H ++ es) k ≤ 0 := fun k => by
      rw [hw.reservedAt_cancel rfl k, hres, amountAt_nil, add_zero]
      exact hunres k
    simp only [hres, List.isEmpty_nil, Bool.not_true, Bool.false_eq_true, if_false]
    split
    case isTrue hother =>
      obtain ⟨k, hk⟩ := hany.1 hother
      exact ⟨hR, k, (hrest k).symm ▸ hk⟩
    case isFalse hother =>
      exact ⟨hR, fun k => (hrest k).symm ▸ not_lt.1 fun hk => hother (hany.2 ⟨k, hk⟩)⟩
  · -- a restored row is a positive reservation, in a batch without releases
    obtain ⟨⟨k, a⟩, hq⟩ := List.exists_mem_of_ne_nil restore hres
    obtain ⟨x, hx, hxd⟩ := hw.exists_row (List.mem_append_right _ (List.mem_map_of_mem hq))
    have hR := hw.reservedAt_pos hb cancel_drafts_ne_release hx
      (by simpa using congrArg EntryDraft.entryType hxd) (hpos.of_append happ x hx)
    have hrestoring : (!restore.isEmpty) = true := by simpa using hres
    simp only [hrestoring, if_true]
    split <;> exact ⟨x.key, hR⟩

/-- An applied event reports the state its document's history then shows. -/
theorem handle_applied_shows {ev : LifecycleEvent} (hinv : e.BalanceInv)
    (hroom : Decimal.Room S (e.books.ledger.entries.map Entry.amount))
    (hpos : e'.books.ledger.RowsPositive) (h : ((handle ev).run).run e = (.ok (.applied u), e')) :
    u.document = ev.document.docRef ∧ Shows (e'.history u.document) u.status.state := by
  have hshows : u.document = ev.document.docRef ∧
      Shows (e'.history ev.document.docRef) u.status.state := by
    cases ev with
    | reachedTargetState document context => exact reach_applied_shows hinv hpos h
    | secondarySubmitted document secondary context => exact submit_applied_shows hinv hroom hpos h
    | rejectedOrReopened document context => exact reject_applied_shows hinv hroom h
    | secondaryCancelled document secondary context => exact cancel_applied_shows hinv hroom hpos h
  obtain ⟨hdoc, hs⟩ := hshows
  rw [hdoc]
  exact ⟨rfl, hs⟩

/-! ## Section 4: Along every run -/

/-- Along every run from an empty ledger, an event that applies reports the state that the
    document's summary then derives: reserved after a lock or an allowed overrun, consumed after
    a consumption and unlocked after a release. -/
theorem applied_status_state {e₀ : Engine} (h₀ : e₀.books.ledger = {}) (cs : List Request)
    (ev : LifecycleEvent) {u : StatusUpdate} {e' : Engine}
    (happ : ((handle ev).run).run (Request.runAll cs e₀) = (.ok (.applied u), e'))
    {S : ℕ} (hroom : Decimal.Room S (e'.books.ledger.entries.map Entry.amount)) :
    u.document = ev.document.docRef ∧
      ∃ sm, ((summary u.document).run).run e' = (.ok sm, e') ∧ sm.state = u.status.state := by
  -- the event is the run's next request, and it ends in `e'`
  have hstep : (Request.event ev).step (Request.runAll cs e₀) = e' := by
    simp only [Request.step, Request.run, run_map, happ]
  have hroom₀ : Decimal.Room S ((Request.runAll cs e₀).books.ledger.entries.map Entry.amount) := by
    rw [← hstep] at hroom
    exact hroom.sublist ((Request.step_extends _ _).sublist.map Entry.amount)
  have hinv := Engine.BalanceInv.runAll cs (balanceInv_of_empty h₀) hroom₀
  have hpos : e'.books.ledger.RowsPositive := by
    rw [← hstep, ← Request.runAll_append]
    exact Request.runAll_rowsPositive _ (by rw [h₀]; exact Ledger.rowsPositive_empty)
  obtain ⟨hdoc, hshows⟩ := handle_applied_shows hinv hroom₀ hpos happ
  -- the summary reads the positions of the history after the event
  obtain ⟨ps, hps, hposs⟩ := positions_exact
    (hroom.sublist (List.filter_sublist.map Entry.amount) :
      Decimal.Room S ((e'.history u.document).map Entry.amount))
  exact ⟨hdoc, _, run_summary hps, hposs.deriveState_of_shows hshows⟩

/-- An order funded with a cent, reserved, invoiced for the cent and then its invoice cancelled:
    the cancellation restores the reservation and reports a lock, and the order's summary shows
    it reserved. -/
theorem cancelled_invoice_restores_lock :
    ∃ u e', ((handle (.secondaryCancelled
          { docRef := ⟨"Purchase Order", "PO-1"⟩, company := some "ACME",
            fiscalPeriod := some "FY2026", costCenter := "CC-OPS", postingDate := ⟨2026, 1, 1⟩,
            workflowState := "Approved", lines := [⟨"6100", Decimal.cent⟩] }
          { docRef := ⟨"Purchase Invoice", "PINV-1"⟩, postingDate := ⟨2026, 1, 2⟩,
            lines := [⟨"6100", Decimal.cent⟩] } {})).run).run
        (Request.runAll [.supplement ⟨"ACME", "FY2026", "CC-OPS", "6100", none, none⟩ Decimal.cent
            ⟨"Budget", "B-1"⟩ ⟨2026, 1, 1⟩,
          .event (.reachedTargetState
            { docRef := ⟨"Purchase Order", "PO-1"⟩, company := some "ACME",
              fiscalPeriod := some "FY2026", costCenter := "CC-OPS", postingDate := ⟨2026, 1, 1⟩,
              workflowState := "Approved", lines := [⟨"6100", Decimal.cent⟩] } {}),
          .event (.secondarySubmitted
            { docRef := ⟨"Purchase Order", "PO-1"⟩, company := some "ACME",
              fiscalPeriod := some "FY2026", costCenter := "CC-OPS", postingDate := ⟨2026, 1, 1⟩,
              workflowState := "Approved", lines := [⟨"6100", Decimal.cent⟩] }
            { docRef := ⟨"Purchase Invoice", "PINV-1"⟩, postingDate := ⟨2026, 1, 2⟩,
              lines := [⟨"6100", Decimal.cent⟩] } {})] {}) = (.ok (.applied u), e') ∧
      Decimal.Room 2 (e'.books.ledger.entries.map Entry.amount) ∧ u.status = .locked ∧
      u.document = ⟨"Purchase Order", "PO-1"⟩ ∧
      ∃ sm, ((summary u.document).run).run e' = (.ok sm, e') ∧ sm.state = u.status.state := by
  -- the run is evaluated once, by the kernel, and its result named
  generalize hrun : ((handle _).run).run _ = r
  have hstatus : r.1.toOption.bind Outcome.status? = some .locked := by
    rw [← hrun]
    decide +kernel
  have hroom : Decimal.Room 2 (r.2.books.ledger.entries.map Entry.amount) := by
    rw [← hrun]
    exact ⟨by decide, by decide +kernel, by decide +kernel⟩
  rcases r with ⟨_ | _ | _ | _, e'⟩ <;> simp [Except.toOption, Outcome.status?] at hstatus
  exact ⟨_, e', rfl, hroom, hstatus, applied_status_state rfl _ _ hrun hroom⟩

end Engine

end Encumbrance
