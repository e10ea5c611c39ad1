import Mathlib
import Encumbrance.Proofs.Control.RoundTrip

/-! # Cancelling a secondary right after its submission

    A submission releases what the document has outstanding and books the secondary's
    consumption against it; cancelling the secondary reverses that consumption and restores the
    document's last reservation when nothing else is consumed and nothing is reserved. The
    reversal takes back exactly the submission's consumption (`Balanced.consumedAt_submit`), but
    the restoration is read from the last reservation, not from what the submission released.

    The two agree unless the document was unlocked with a reservation in its past: then the
    submission released nothing, and the cancellation restores a hold that did not exist
    (`cancel_restores_released_hold`). Whenever the document was reserved, or consumed, or never
    reserved, the cancellation restores exactly what the submission released, and the
    document's sums, its state and every scope's figures are as before the submission
    (`consume_cancel_round_trip`).
-/

namespace Encumbrance

open Decimal

/-! ## Section 1: A submission and its cancellation, on the sums -/

section Sums

variable {H es es' : List Entry} {ds ds' : List EntryDraft} {S : ℕ}
  {out reversed restore : List (DimensionKey × Decimal)} {slices : List Slice}
  {others : List Position} {D secondary : DocumentRef} {p p' q : Date}

/-- Every row a submission books is against the secondary, and none of them reserves. -/
theorem Written.submit_rows (hw : Written H ds es)
    (hds : ds = (out.map fun (k, amount) =>
        (EntryDraft.make k .release amount D p).bookedAgainst secondary) ++
      slices.map fun s => (EntryDraft.make s.key .consumption s.amount D p).bookedAgainst secondary) :
    ∀ x ∈ es, x.against = some secondary ∧ x.entryType ≠ .reservation := by
  intro x hx
  have hxd := hw.mem_draft hx
  rw [hds, List.mem_append, List.mem_map, List.mem_map] at hxd
  rcases hxd with ⟨⟨k, a⟩, -, hq⟩ | ⟨s, -, hq⟩
  · have ha := congrArg EntryDraft.against hq
    have ht := congrArg EntryDraft.entryType hq
    simp only [EntryDraft.bookedAgainst_against, EntryDraft.bookedAgainst_entryType,
      EntryDraft.make_entryType, Entry.draft_against, Entry.draft_entryType] at ha ht
    simp [← ha, ← ht]
  · have ha := congrArg EntryDraft.against hq
    have ht := congrArg EntryDraft.entryType hq
    simp only [EntryDraft.bookedAgainst_against, EntryDraft.bookedAgainst_entryType,
      EntryDraft.make_entryType, Entry.draft_against, Entry.draft_entryType] at ha ht
    simp [← ha, ← ht]

/-- Nothing is consumed against a secondary that the document has no outstanding consumption
    against. -/
theorem Balanced.consumedAt_against_zero (hb : Balanced H) (hroom : Room S (H.map Entry.amount))
    (hnone : outstandingConsumedAgainst H secondary = .ok []) (k : DimensionKey) :
    consumedAt (H.filter fun x => x.against = some secondary) k = 0 := by
  have hempty := (outstandingConsumedAgainst_spec hroom hnone).2
  exact le_antisymm (hempty.1 rfl k) (hb.consumed_nonneg (fun a => a = some secondary) k)

/-- After a submission, what is consumed against the secondary is what the submission
    consumed. -/
theorem Balanced.consumedAt_submit_against (hb : Balanced H) (hroom : Room S (H.map Entry.amount))
    (hnone : outstandingConsumedAgainst H secondary = .ok [])
    (hagainst : ∀ x ∈ es, x.against = some secondary) (k : DimensionKey) :
    consumedAt ((H ++ es).filter fun x => x.against = some secondary) k = consumedAt es k := by
  rw [List.filter_append, consumedAt_append, hb.consumedAt_against_zero hroom hnone k, zero_add,
    List.filter_eq_self.2 fun x hx => by simp [hagainst x hx]]

/-- The rows of a submission are all against the secondary, so the rows against other documents
    are those from before. -/
theorem filter_others_submit (hagainst : ∀ x ∈ es, x.against = some secondary) :
    (H ++ es).filter (·.against ≠ some secondary) = H.filter (·.against ≠ some secondary) := by
  rw [List.filter_append, (List.filter_eq_nil_iff (l := es)).2 fun x hx => by simp [hagainst x hx],
    List.append_nil]

/-- What a balanced history has consumed is consumed against documents other than a secondary
    it has no outstanding consumption against. -/
theorem Balanced.consumedAt_eq_others (hb : Balanced H) (hroom : Room S (H.map Entry.amount))
    (hnone : outstandingConsumedAgainst H secondary = .ok []) (k : DimensionKey) :
    consumedAt H k = consumedAt (H.filter (·.against ≠ some secondary)) k := by
  rw [consumedAt_against_split H (some secondary) k, hb.consumedAt_against_zero hroom hnone k,
    zero_add]

/-- A submission releases everything that was reserved. -/
theorem Balanced.reservedAt_submit (hb : Balanced H) (hroom : Room S (H.map Entry.amount))
    (hw : Written H ds es) (hout : outstandingReserved H = .ok out)
    (hds : ds = (out.map fun (k, amount) =>
        (EntryDraft.make k .release amount D p).bookedAgainst secondary) ++
      slices.map fun s => (EntryDraft.make s.key .consumption s.amount D p).bookedAgainst secondary)
    (k : DimensionKey) : reservedAt (H ++ es) k = 0 :=
  hb.reservedAt_release_all hroom (hds ▸ hw) hout
    (fun k => sum_map_keyed fun q => by cases q; simp) (fun d hd => by
      obtain ⟨s, -, rfl⟩ := List.mem_map.1 hd
      simp [reservedTypes]) k

/-- **What a cancellation after a submission restores.** Key by key, it is what the document
    had reserved before the submission, provided the document was reserved, consumed, or never
    reserved. A reserved document has consumed nothing, so nothing else holds its budget and
    its last reservation, which is what it holds, comes back. Otherwise nothing comes back, or
    the last reservation of a document that holds nothing, and there is none. -/
theorem Balanced.restore_after_submit (hb : Balanced H) (hroom : Room S ((H ++ es).map Entry.amount))
    (hw : Written H ds es) (hout : outstandingReserved H = .ok out)
    (hnone : outstandingConsumedAgainst H secondary = .ok [])
    (hds : ds = (out.map fun (k, amount) =>
        (EntryDraft.make k .release amount D p).bookedAgainst secondary) ++
      slices.map fun s => (EntryDraft.make s.key .consumption s.amount D p).bookedAgainst secondary)
    (hheld : ¬Shows H .unlocked ∨ lastReservation H = [])
    (hothers : positions ((H ++ es).filter (·.against ≠ some secondary)) = .ok others)
    (hrestore : Engine.restoreOf (H ++ es) (others.any fun p => Decimal.zero < p.consumed) =
      .ok restore) (k : DimensionKey) :
    amountAt restore k = reservedAt H k := by
  have hroomH : Room S (H.map Entry.amount) := by
    rw [List.map_append] at hroom
    exact hroom.sublist (List.sublist_append_left _ _)
  have hrows := hw.submit_rows hds
  have hR1 := hb.reservedAt_submit hroomH hw hout hds
  have hothersH := filter_others_submit (H := H) fun x hx => (hrows x hx).1
  have hlast : lastReservation (H ++ es) = lastReservation H :=
    lastReservation_append_of_forall fun x hx => (hrows x hx).2
  by_cases hres : ∃ k, 0 < reservedAt H k
  · -- reserved: nothing was consumed, so the last reservation comes back, and it is what is held
    rw [hothersH] at hothers
    obtain ⟨os, hos, hposs⟩ := positions_exact (hroomH.sublist (List.filter_sublist.map _))
    rw [hothers] at hos
    cases hos
    have hother : (others.any fun p => Decimal.zero < p.consumed) = false := by
      rw [← Bool.not_eq_true, hposs.any_pos hposs.consumed fun _ => consumedAt_of_not_mem]
      rintro ⟨k', hk'⟩
      have hC := hb.exclusive hres k'
      rw [hb.consumedAt_eq_others hroomH hnone k'] at hC
      linarith
    obtain ⟨out', hout', -, hempty⟩ := outstandingReserved_exact hroom
    have hnil : out' = [] := hempty.2 fun k' => (hR1 k').le
    rw [hnil] at hout'
    rw [hother] at hrestore
    simp only [Engine.restoreOf, hout', Bool.false_eq_true, if_false, List.isEmpty_nil,
      Bool.not_true] at hrestore
    cases hrestore
    rw [hlast]
    exact (hb.last hres k).symm
  · -- not reserved: nothing is restored but the last reservation of an unlocked document
    have hR0 : ∀ k, reservedAt H k = 0 := fun k =>
      le_antisymm (not_lt.1 fun h => hres ⟨k, h⟩) (hb.reserved_nonneg k)
    have hb₁ : Balanced (H ++ es) := hb.append_submit hroomH hw hout hds
    rcases hb₁.restore_cases hroom hothers hrestore with h0 | ⟨hCO, -, hl⟩
    · rw [h0, amountAt_nil, hR0 k]
    · have hunl : Shows H .unlocked := ⟨fun k => (hR0 k).le, fun k => by
        rw [hb.consumedAt_eq_others hroomH hnone k, ← hothersH]
        exact hCO k⟩
      rw [hl, hlast, hheld.resolve_left (not_not.2 hunl), amountAt_nil, hR0 k]

/-- **A cancellation right after a submission undoes it on the sums**, whenever the document
    was reserved, consumed, or never reserved: every key's reserved and consumed sums are back
    to what they were before the submission. -/
theorem Balanced.sums_after_cancel (hb : Balanced H) (hroom : Room S ((H ++ es).map Entry.amount))
    (hw : Written H ds es) (hout : outstandingReserved H = .ok out)
    (hnone : outstandingConsumedAgainst H secondary = .ok [])
    (hds : ds = (out.map fun (k, amount) =>
        (EntryDraft.make k .release amount D p).bookedAgainst secondary) ++
      slices.map fun s => (EntryDraft.make s.key .consumption s.amount D p).bookedAgainst secondary)
    (hheld : ¬Shows H .unlocked ∨ lastReservation H = [])
    (hrev : outstandingConsumedAgainst (H ++ es) secondary = .ok reversed)
    (hothers : positions ((H ++ es).filter (·.against ≠ some secondary)) = .ok others)
    (hrestore : Engine.restoreOf (H ++ es) (others.any fun p => Decimal.zero < p.consumed) =
      .ok restore)
    (hw' : Written (H ++ es) ds' es')
    (hds' : ds' = (reversed.map fun (k, amount) =>
        (EntryDraft.make k .reversal amount D q).bookedAgainst secondary) ++
      restore.map fun (k, amount) => EntryDraft.make k .reservation amount D p')
    (k : DimensionKey) :
    reservedAt (H ++ es ++ es') k = reservedAt H k ∧
      consumedAt (H ++ es ++ es') k = consumedAt H k := by
  have hroomH : Room S (H.map Entry.amount) := by
    rw [List.map_append] at hroom
    exact hroom.sublist (List.sublist_append_left _ _)
  have hb₁ : Balanced (H ++ es) := hb.append_submit hroomH hw hout hds
  refine ⟨?_, ?_⟩
  · -- the restoration gives back what was reserved
    rw [hw'.reservedAt_cancel hds' k, hb.reservedAt_submit hroomH hw hout hds k, zero_add,
      hb.restore_after_submit hroom hw hout hnone hds hheld hothers hrestore k]
  · -- the reversal takes back exactly the submission's consumption
    have hC := hw'.consumedAt_cancel hds' (fun _ => true) k
    simp only [List.filter_true, if_true] at hC
    rw [hC, hb₁.amountAt_reversed hroom hrev k,
      hb.consumedAt_submit_against hroomH hnone (fun x hx => (hw.submit_rows hds x hx).1) k,
      consumedAt_append]
    ring

/-- Booking a draft against a document does not change whether it passes its checks. -/
@[simp] theorem EntryDraft.validate_bookedAgainst (d : EntryDraft) (doc : DocumentRef) :
    (d.bookedAgainst doc).validate = d.validate := rfl

/-- A key where a list of positive keyed amounts has an entry gets a positive amount. -/
theorem amountAt_pos_of_mem {xs : List (DimensionKey × Decimal)} (hpos : ∀ q ∈ xs, 0 < q.2.val)
    {q : DimensionKey × Decimal} (hq : q ∈ xs) : 0 < amountAt xs q.1 := by
  have hle : q.2.val ≤ amountAt xs q.1 :=
    List.single_le_sum (fun r hr => by
        obtain ⟨q', hq', rfl⟩ := List.mem_map.1 hr
        exact (hpos q' (List.mem_of_mem_filter hq')).le)
      _ (List.mem_map_of_mem (List.mem_filter.2 ⟨hq, by simp⟩))
  exact (hpos q hq).trans_le hle

/-- The last reservation weighs no more than the rows it is read from. -/
theorem sum_abs_lastReservation_le (H : List Entry) :
    ((lastReservation H).map fun q => |q.2.val|).sum ≤ magnitude H := by
  unfold lastReservation
  split
  · exact List.sum_nonneg fun r hr => by
      obtain ⟨x, -, rfl⟩ := List.mem_map.1 hr
      exact abs_nonneg _
  · rw [List.map_map]
    exact (List.filter_sublist.map _).sum_le_sum fun r hr => by
      obtain ⟨x, -, rfl⟩ := List.mem_map.1 hr
      exact abs_nonneg _

/-- What a cancellation restores after rows that reserve nothing weighs no more than the
    history before those rows. -/
theorem sum_abs_restoreOf_le {other : Bool} (hno : ∀ x ∈ es, x.entryType ≠ .reservation)
    (hrestore : Engine.restoreOf (H ++ es) other = .ok restore) :
    (restore.map fun q => |q.2.val|).sum ≤ magnitude H := by
  rcases Engine.restoreOf_eq hrestore with h0 | ⟨-, -, hl⟩
  · rw [h0, List.map_nil, List.sum_nil]
    exact List.sum_nonneg fun r hr => by
      obtain ⟨x, -, rfl⟩ := List.mem_map.1 hr
      exact abs_nonneg _
  · rw [hl, lastReservation_append_of_forall hno]
    exact sum_abs_lastReservation_le _

/-- A submission of at least one slice leaves something consumed against the secondary, so a
    cancellation right after it has something to reverse. -/
theorem Balanced.reversed_ne_nil_of_submit (hb : Balanced H)
    (hroom : Room S ((H ++ es).map Entry.amount)) (hpos : ∀ x ∈ es, 0 < x.amount.val)
    (hw : Written H ds es) (hnone : outstandingConsumedAgainst H secondary = .ok [])
    (hds : ds = (out.map fun (k, amount) =>
        (EntryDraft.make k .release amount D p).bookedAgainst secondary) ++
      slices.map fun s => (EntryDraft.make s.key .consumption s.amount D p).bookedAgainst secondary)
    (hne : slices ≠ []) (hrev : outstandingConsumedAgainst (H ++ es) secondary = .ok reversed) :
    reversed ≠ [] := by
  have hroomH : Room S (H.map Entry.amount) :=
    hroom.sublist ((List.sublist_append_left _ _).map _)
  have hempty := (outstandingConsumedAgainst_spec hroom hrev).2
  -- the row of any slice consumes at its key
  obtain ⟨s, hs⟩ := List.exists_mem_of_ne_nil slices hne
  obtain ⟨x, hx, hxd⟩ := hw.exists_row (hds ▸ List.mem_append_right _ (List.mem_map_of_mem hs))
  have hxpos := hw.consumedAt_batch_pos (hds ▸ Engine.submit_drafts_ne_reversal) hx
    (by simpa using congrArg EntryDraft.entryType hxd) (hpos x hx)
  intro hnil
  have hle := hempty.1 hnil x.key
  rw [hb.consumedAt_submit_against hroomH hnone (fun y hy => (hw.submit_rows hds y hy).1) x.key]
    at hle
  linarith

/-- **The batch a cancellation books right after a submission**, as keyed amounts: what it
    reverses and what it restores. Each key is a key the submission booked, each amount is
    positive and at the history's scale, and the whole weighs no more than the history after
    the submission. -/
theorem Balanced.cancel_batch_after_submit (hb : Balanced H)
    (hroom : Room S ((H ++ es).map Entry.amount)) (hpos : ∀ x ∈ H ++ es, 0 < x.amount.val)
    (hw : Written H ds es) (hout : outstandingReserved H = .ok out)
    (hnone : outstandingConsumedAgainst H secondary = .ok [])
    (hds : ds = (out.map fun (k, amount) =>
        (EntryDraft.make k .release amount D p).bookedAgainst secondary) ++
      slices.map fun s => (EntryDraft.make s.key .consumption s.amount D p).bookedAgainst secondary)
    (hheld : ¬Shows H .unlocked ∨ lastReservation H = [])
    (hrev : outstandingConsumedAgainst (H ++ es) secondary = .ok reversed)
    (hothers : positions ((H ++ es).filter (·.against ≠ some secondary)) = .ok others)
    (hrestore : Engine.restoreOf (H ++ es) (others.any fun p => Decimal.zero < p.consumed) =
      .ok restore) :
    (∀ r ∈ reversed ++ restore, (∃ x ∈ es, x.key = r.1) ∧ 0 < r.2.val ∧ r.2.scale ≤ S) ∧
      ((reversed ++ restore).map fun r => |r.2.val|).sum ≤ magnitude (H ++ es) := by
  have hroomH : Room S (H.map Entry.amount) :=
    hroom.sublist ((List.sublist_append_left _ _).map _)
  have hrows := hw.submit_rows hds
  obtain ⟨hnd, hkeys⟩ := outstandingConsumedAgainst_keys hroom hrev
  have hrevval : ∀ r ∈ reversed, r.2.val = consumedAt es r.1 := fun r hr =>
    (hkeys r hr).2.trans
      (hb.consumedAt_submit_against hroomH hnone (fun x hx => (hrows x hx).1) r.1)
  have hrestpos : ∀ r ∈ restore, 0 < r.2.val := fun r hr => by
    obtain ⟨x, hx, rfl⟩ := restoreOf_rows hrestore r hr
    exact hpos x hx
  refine ⟨fun r hr => ?_, ?_⟩
  · rcases List.mem_append.1 hr with hr | hr
    · -- a reversed key was consumed by the submission
      refine ⟨?_, outstandingConsumedAgainst_pos hrev r hr, (hkeys r hr).1⟩
      by_contra hoff
      have h0 : consumedAt es r.1 = 0 := consumedAt_of_not_mem fun x hx hxk => hoff ⟨x, hx, hxk⟩
      have hr0 := outstandingConsumedAgainst_pos hrev r hr
      rw [hrevval r hr, h0] at hr0
      exact lt_irrefl 0 hr0
    · -- a restored key was reserved before, so the submission released it
      obtain ⟨x, hx, hrx⟩ := restoreOf_rows hrestore r hr
      refine ⟨?_, hrestpos r hr, by rw [hrx]; exact hroom.scales _ (List.mem_map_of_mem hx)⟩
      by_contra hoff
      have h0 : reservedAt es r.1 = 0 := reservedAt_of_not_mem fun y hy hyk => hoff ⟨y, hy, hyk⟩
      have hR1 := hb.reservedAt_submit hroomH hw hout hds r.1
      have hr0 := amountAt_pos_of_mem hrestpos hr
      rw [hb.restore_after_submit hroom hw hout hnone hds hheld hothers hrestore] at hr0
      rw [reservedAt_append, h0] at hR1
      linarith
  · -- the reversal weighs what the submission consumed, the restoration what was held before
    have hrevw : (reversed.map fun r => |r.2.val|).sum ≤ magnitude es :=
      calc (reversed.map fun r => |r.2.val|).sum
          = ((reversed.map (·.1)).map fun k => |consumedAt es k|).sum := by
            rw [List.map_map]
            exact congrArg List.sum (List.map_congr_left fun r hr => by simp [hrevval r hr])
        _ ≤ magnitude es := sum_abs_consumedAt_le hnd es
    have hresw := sum_abs_restoreOf_le (fun x hx => (hrows x hx).2) hrestore
    have hm : magnitude (H ++ es) = magnitude H + magnitude es := by
      simp only [magnitude, List.map_append, List.sum_append]
    rw [List.map_append, List.sum_append, hm]
    linarith

end Sums

/-! ## Section 2: The cancellation goes through -/

namespace Engine

variable {e e₁ e₂ : Engine} {document : SourceDocument} {secondary : SecondaryDocument}
  {context : EventContext} {u u' : StatusUpdate} {S : ℕ}

/-- A submission that applied found the scope of each of its rows free. -/
theorem run_submit_free
    (h : ((onSecondarySubmitted document secondary context).run).run e = (.ok (.applied u), e₁))
    (hroom : Room S (u.entries.map Entry.amount)) :
    ∀ x ∈ u.entries, e.scopeOf x.key ∉ e.books.locks.held := by
  obtain ⟨slices, out, es, sh, hen, hnone, hsl, hne, hout, happ, -, rfl⟩ := run_submit_applied h
  rw [run_onSecondarySubmitted, submitPlan_eq_unchecked hen hnone hsl hne hout,
    Plan.run_exec_unchecked] at h
  exact (appendStep_unchecked _).free_of_rows h happ hroom

/-- A cancellation right after a submission goes through, whenever the document was reserved,
    consumed, or never reserved: each key it reverses or restores is a key the submission
    booked, whose scope was free, and it books no more than the document's history after the
    submission weighs. -/
theorem cancel_after_submit_ok (hinv : e.BalanceInv) (hagree : e₁.CacheAgrees)
    (hroom : Room S (e₁.books.amounts ++ (e₁.history document.docRef).map Entry.amount))
    (hpos : e₁.books.ledger.RowsPositive)
    (hheld : ¬Shows (e.history document.docRef) .unlocked ∨
      lastReservation (e.history document.docRef) = [])
    (h : ((onSecondarySubmitted document secondary context).run).run e = (.ok (.applied u), e₁)) :
    ∃ u' e₂, ((onSecondaryCancelled document secondary).run).run e₁ = (.ok (.applied u'), e₂) ∧
      Room S (e₂.books.ledger.entries.map Entry.amount) := by
  obtain ⟨slices, out, es, sh, hen, hnone, hsl, hne, hout, happ, hframe, hu⟩ :=
    run_submit_applied h
  obtain ⟨hw, hhist⟩ :=
    history_append_own (D := document.docRef) hinv.fresh happ submit_drafts_source
  have hb := hinv.history document.docRef
  have hroomH₁ : Room S ((e₁.history document.docRef).map Entry.amount) :=
    hroom.sublist (List.sublist_append_right _ _)
  rw [hhist] at hroomH₁
  have hposH : ∀ x ∈ e.history document.docRef ++ es, 0 < x.amount.val := fun x hx => by
    rw [← hhist] at hx
    exact hpos x (List.mem_of_mem_filter hx)
  -- what the cancellation finds: the submission's consumption to reverse, and what to restore
  obtain ⟨rev, hrev, -⟩ := outstandingConsumedAgainst_exact hroomH₁ secondary.docRef
  obtain ⟨others, hothers⟩ : ∃ others,
      positions ((e.history document.docRef ++ es).filter
        (·.against ≠ some secondary.docRef)) = .ok others :=
    (positions_exact (hroomH₁.sublist (List.filter_sublist.map _))).imp fun _ h => h.1
  obtain ⟨restore, hrestore⟩ : ∃ restore, restoreOf (e.history document.docRef ++ es)
      (others.any fun p => Decimal.zero < p.consumed) = .ok restore := by
    obtain ⟨out₁, hout₁, -⟩ := outstandingReserved_exact hroomH₁
    unfold restoreOf
    split
    · exact ⟨_, rfl⟩
    · rw [hout₁]
      exact ⟨_, rfl⟩
  have hne' := hb.reversed_ne_nil_of_submit hroomH₁
    (fun x hx => hposH x (List.mem_append_right _ hx)) hw hnone rfl hne hrev
  obtain ⟨hbatch, hweigh⟩ :=
    hb.cancel_batch_after_submit hroomH₁ hposH hw hout hnone rfl hheld hrev hothers hrestore
  rw [← hhist] at hrev hothers hrestore
  rw [run_onSecondaryCancelled,
    cancelPlan_eq_unchecked (by rw [hframe.config]; exact hen) hrev hne' hothers hrestore,
    Plan.run_exec_unchecked]
  generalize hds : List.map _ rev ++ List.map _ restore = ds
  -- every key of the batch is a key the submission booked, whose scope it found free
  have hfree : ∀ d ∈ ds, e₁.scopeOf d.key ∉ e₁.books.locks.held := by
    intro d hd
    have hk := List.mem_map_of_mem (f := EntryDraft.key) hd
    rw [← hds, cancel_drafts_keys] at hk
    obtain ⟨r, hr, hrk⟩ := List.mem_map.1 hk
    obtain ⟨x, hx, hxk⟩ := (hbatch r hr).1
    have hroomU : Room S (u.entries.map Entry.amount) := by
      rw [hu]
      exact hroomH₁.sublist ((List.sublist_append_right _ _).map _)
    have hxfree := run_submit_free h hroomU x (by rw [hu]; exact hx)
    rw [hxk, hrk] at hxfree
    simpa [scopeOf, hframe.config, hframe.held] using hxfree
  have hvalid : validateBatch ds = .ok () := by
    rw [← hds]
    refine validateBatch_of_sound (by simp [hne']) (fun d hd => ?_) fun d hd => ?_
    · rcases List.mem_append.1 hd with hd | hd <;> obtain ⟨r, hr, rfl⟩ := List.mem_map.1 hd
      · rw [EntryDraft.validate_bookedAgainst]
        exact EntryDraft.validate_make _ _ _ _ (hbatch r (List.mem_append_left _ hr)).2.1.le
      · exact EntryDraft.validate_make _ _ _ _ (hbatch r (List.mem_append_right _ hr)).2.1.le
    · rcases List.mem_append.1 hd with hd | hd <;> obtain ⟨_, -, rfl⟩ := List.mem_map.1 hd <;> simp
  -- the batch weighs no more than the history after the submission
  have hroom₂ : Room S (e₁.books.amounts ++ ds.map EntryDraft.amount) := by
    rw [← hds, cancel_drafts_amounts]
    refine hroom.trade (fun z hz => ?_) ?_
    · obtain ⟨r, hr, rfl⟩ := List.mem_map.1 hz
      exact (hbatch r hr).2.2
    · rw [hhist, List.map_map, List.map_map]
      exact hweigh
  obtain ⟨⟨es', sh'⟩, e₂, hrun, hroom₃⟩ := run_appendUnchecked_ok hagree hfree hvalid hroom₂ _
  exact ⟨_, e₂, hrun, hroom₃⟩

/-! ## Section 3: What the cancellation undoes -/

/-- After a submission and its cancellation, the document's sums are back to what they were
    before the submission, whenever the document was reserved, consumed, or never reserved; the
    ledger holds the two batches more. -/
theorem cancel_after_submit_sums (hinv : e.BalanceInv) (hinv₁ : e₁.BalanceInv)
    (hroom : Room S ((e₁.history document.docRef).map Entry.amount))
    (hheld : ¬Shows (e.history document.docRef) .unlocked ∨
      lastReservation (e.history document.docRef) = [])
    (h : ((onSecondarySubmitted document secondary context).run).run e = (.ok (.applied u), e₁))
    (hc : ((onSecondaryCancelled document secondary).run).run e₁ = (.ok (.applied u'), e₂)) :
    (∀ k, reservedAt (e₂.history document.docRef) k = reservedAt (e.history document.docRef) k ∧
      consumedAt (e₂.history document.docRef) k = consumedAt (e.history document.docRef) k) ∧
    e₂.history document.docRef = e.history document.docRef ++ (u.entries ++ u'.entries) ∧
    e₂.books.ledger.entries = e.books.ledger.entries ++ (u.entries ++ u'.entries) ∧ Frame e e₂ ∧
    ∀ x ∈ u.entries ++ u'.entries, x.entryType ∉ allocationTypes := by
  obtain ⟨slices, out, es, sh, -, hnone, -, -, hout, happ, hframe, rfl⟩ := run_submit_applied h
  obtain ⟨reversed, others, restore, es', sh', -, hrev, -, hothers, hrestore, happ', hframe', hu'⟩ :=
    run_cancel_applied hc
  obtain ⟨hw, hhist⟩ :=
    history_append_own (D := document.docRef) hinv.fresh happ submit_drafts_source
  obtain ⟨hw', hhist'⟩ :=
    history_append_own (D := document.docRef) hinv₁.fresh happ' cancel_drafts_source
  rw [hhist] at hrev hothers hrestore hw' hhist' hroom
  rw [hu']
  refine ⟨fun k => ?_, by rw [hhist', List.append_assoc], ?_, hframe.trans hframe', fun x hx => ?_⟩
  · rw [hhist']
    exact (hinv.history document.docRef).sums_after_cancel hroom hw hout hnone rfl hheld hrev
      hothers hrestore hw' rfl k
  · rw [Ledger.append_entries happ', Ledger.append_entries happ, List.append_assoc]
  · -- releases and consumptions, then reversals and restored reservations
    have hxd : x.draft ∈ (es ++ es').map Entry.draft := List.mem_map_of_mem hx
    rw [List.map_append, Ledger.append_drafts happ, Ledger.append_drafts happ'] at hxd
    simp only [List.mem_append, List.mem_map] at hxd
    rcases hxd with (⟨_, -, hq⟩ | ⟨_, -, hq⟩) | (⟨_, -, hq⟩ | ⟨_, -, hq⟩) <;>
    · have ht := congrArg EntryDraft.entryType hq
      simp only [EntryDraft.bookedAgainst_entryType, EntryDraft.make_entryType,
        Entry.draft_entryType] at ht
      simp [← ht, allocationTypes]

/-- **A cancellation right after a submission undoes it** — along every run from an empty
    ledger and cache, whenever the document was reserved, consumed, or never reserved before the
    submission. The cancellation applies; it restores, key by key, exactly the hold the
    submission released; the document's reserved and consumed sums and its derived state are
    what they were before the submission, and so is every scope's allocated, actual, reserved
    and available figure. Room for the books and the document's history once more is room for
    exact sums. -/
theorem consume_cancel_round_trip {e₀ : Engine} (h₀ : e₀.books.ledger = {})
    (hc₀ : e₀.books.cache.slots = []) (cs : List Request) (document : SourceDocument)
    (secondary : SecondaryDocument) (context : EventContext) {u : StatusUpdate} {e₁ : Engine}
    (hsub : ((onSecondarySubmitted document secondary context).run).run (Request.runAll cs e₀) =
      (.ok (.applied u), e₁))
    (hheld : ¬Shows ((Request.runAll cs e₀).history document.docRef) .unlocked ∨
      lastReservation ((Request.runAll cs e₀).history document.docRef) = [])
    {S : ℕ} (hroom : Room S (e₁.books.amounts ++ (e₁.history document.docRef).map Entry.amount)) :
    ∃ u' e₂, ((onSecondaryCancelled document secondary).run).run e₁ = (.ok (.applied u'), e₂) ∧
      (∀ k, reservedAt u'.entries k = -reservedAt u.entries k) ∧
      (∀ k, reservedAt (e₂.history document.docRef) k =
          reservedAt ((Request.runAll cs e₀).history document.docRef) k ∧
        consumedAt (e₂.history document.docRef) k =
          consumedAt ((Request.runAll cs e₀).history document.docRef) k) ∧
      (∃ sm sm₀, ((summary document.docRef).run).run e₂ = (.ok sm, e₂) ∧
        ((summary document.docRef).run).run (Request.runAll cs e₀) =
          (.ok sm₀, Request.runAll cs e₀) ∧ sm.state = sm₀.state) ∧
      ∀ s, e₂.books.figures s = (Request.runAll cs e₀).books.figures s := by
  -- the submission is the run's next request, and it ends in `e₁`
  have hstep : (Request.event (.secondarySubmitted document secondary context)).step
      (Request.runAll cs e₀) = e₁ := by
    simp only [Request.step, Request.run, handle, run_map, hsub]
  have hroom₁ : Room S (e₁.books.ledger.entries.map Entry.amount) :=
    hroom.sublist ((Books.ledger_sublist_amounts _).trans (List.sublist_append_left _ _))
  have hinvs := step_invariants h₀ hc₀ cs _ (by rw [hstep]; exact hroom₁)
  rw [hstep] at hinvs
  obtain ⟨hinv, hinv₁, hpos₁, hagree₁⟩ := hinvs
  obtain ⟨u', e₂, hc, hroom₂⟩ := cancel_after_submit_ok hinv hagree₁ hroom hpos₁ hheld hsub
  obtain ⟨hsums, hhist, hledger, hframe, halloc⟩ := cancel_after_submit_sums hinv hinv₁
    (hroom.sublist (List.sublist_append_right _ _)) hheld hsub hc
  -- the two batches cancel key by key
  have hzero : ∀ k, reservedAt (u.entries ++ u'.entries) k = 0 ∧
      consumedAt (u.entries ++ u'.entries) k = 0 := fun k => by
    have hk := hsums k
    rw [hhist, reservedAt_append, consumedAt_append] at hk
    exact ⟨by linarith [hk.1], by linarith [hk.2]⟩
  -- the summaries read the positions of the histories before and after
  have hroomH₂ : Room S ((e₂.history document.docRef).map Entry.amount) :=
    hroom₂.sublist (List.filter_sublist.map Entry.amount)
  have hroomH : Room S (((Request.runAll cs e₀).history document.docRef).map Entry.amount) := by
    refine hroomH₂.sublist ?_
    rw [hhist, List.map_append]
    exact List.sublist_append_left _ _
  obtain ⟨ps, hps, hposs⟩ := positions_exact hroomH
  obtain ⟨qs, hqs, hqoss⟩ := positions_exact hroomH₂
  refine ⟨u', e₂, hc, fun k => ?_, hsums, ⟨_, _, run_summary hqs, run_summary hps,
    hqoss.deriveState_congr hposs (fun k => (hsums k).1) fun k => (hsums k).2⟩, fun s => ?_⟩
  · have hk := (hzero k).1
    rw [reservedAt_append] at hk
    linarith
  · exact Books.figures_of_cancelling hframe.envelopes hframe.posted hframe.actualsFrom hledger
      halloc (fun k => (hzero k).1) (fun k => (hzero k).2) s

/-- An order funded with a cent, reserved, invoiced for the cent and the invoice cancelled: the
    order was reserved when invoiced, so the cancellation puts its reservation back and every
    figure is as before the invoice. -/
theorem cancelled_invoice_restores_order :
    let order : SourceDocument :=
      { docRef := ⟨"Purchase Order", "PO-1"⟩, company := some "ACME", fiscalPeriod := some "FY2026",
        costCenter := "CC-OPS", postingDate := ⟨2026, 1, 1⟩, workflowState := "Approved",
        lines := [⟨"6100", Decimal.cent⟩] }
    let invoice : SecondaryDocument :=
      { docRef := ⟨"Purchase Invoice", "PINV-1"⟩, postingDate := ⟨2026, 1, 2⟩,
        lines := [⟨"6100", Decimal.cent⟩] }
    let s := Request.runAll [.supplement ⟨"ACME", "FY2026", "CC-OPS", "6100", none, none⟩
      Decimal.cent ⟨"Budget", "B-1"⟩ ⟨2026, 1, 1⟩, .event (.reachedTargetState order {})] {}
    ∃ u e₁, ((onSecondarySubmitted order invoice {}).run).run s = (.ok (.applied u), e₁) ∧
      (¬Shows (s.history order.docRef) .unlocked ∨ lastReservation (s.history order.docRef) = []) ∧
      Room 2 (e₁.books.amounts ++ (e₁.history order.docRef).map Entry.amount) ∧
      ∃ u' e₂, ((onSecondaryCancelled order invoice).run).run e₁ = (.ok (.applied u'), e₂) ∧
        (∀ k, reservedAt u'.entries k = -reservedAt u.entries k) ∧
        (∀ k, reservedAt (e₂.history order.docRef) k = reservedAt (s.history order.docRef) k ∧
          consumedAt (e₂.history order.docRef) k = consumedAt (s.history order.docRef) k) ∧
        (∃ sm sm₀, ((summary order.docRef).run).run e₂ = (.ok sm, e₂) ∧
          ((summary order.docRef).run).run s = (.ok sm₀, s) ∧ sm.state = sm₀.state) ∧
        ∀ sc, e₂.books.figures sc = s.books.figures sc := by
  intro order invoice s
  -- the submission is evaluated once, by the kernel, and its result named
  generalize hrun : ((onSecondarySubmitted order invoice {}).run).run s = r
  have hstatus : r.1.toOption.bind Outcome.status? = some .consumed := by
    rw [← hrun]
    decide +kernel
  have hroom : Room 2 (r.2.books.amounts ++ (r.2.history order.docRef).map Entry.amount) := by
    rw [← hrun]
    exact ⟨by decide, by decide +kernel, by decide +kernel⟩
  -- the order was reserved when invoiced
  have hheld : ¬Shows (s.history order.docRef) .unlocked := fun h =>
    absurd (h.1 ⟨"ACME", "FY2026", "CC-OPS", "6100", none, none⟩) (by decide +kernel)
  rcases r with ⟨_ | _ | _ | _, e₁⟩ <;> simp [Except.toOption, Outcome.status?] at hstatus
  exact ⟨_, e₁, rfl, .inl hheld, hroom,
    consume_cancel_round_trip rfl rfl _ _ _ _ hrun (.inl hheld) hroom⟩

/-- An expense claim reserved and rejected, then invoiced, and the invoice cancelled: the
    claim was unlocked when invoiced, and the submission released nothing, yet the cancellation
    restores the claim's last reservation. The claim ends reserved where it held nothing, and
    its scope has 300 less available than before the invoice. -/
theorem cancel_restores_released_hold :
    let claim : SourceDocument :=
      { docRef := ⟨"Expense Claim", "EXP-1"⟩, company := some "ACME", costCenter := "CC-OPS",
        postingDate := ⟨2026, 3, 10⟩, workflowState := "Approved",
        lines := [⟨"6100-Travel", Decimal.ofNat 300⟩] }
    let invoice : SecondaryDocument :=
      { docRef := ⟨"Purchase Invoice", "PINV-1"⟩, postingDate := ⟨2026, 3, 10⟩,
        lines := [⟨"6100-Travel", Decimal.ofNat 200⟩] }
    let travel : DimensionKey := ⟨"ACME", "FY2026", "CC-OPS", "6100-Travel", none, none⟩
    let s := Request.runAll
      [.event (.reachedTargetState claim {}), .event (.rejectedOrReopened claim {})]
      { directory := [("CC-OPS", "ACME")],
        calendar := [⟨"FY2026", none, ⟨2026, 1, 1⟩, ⟨2026, 12, 31⟩⟩],
        books := { envelopes := EnvelopeBook.ofList [(travel, Decimal.ofNat 1000)] } }
    let submitted := ((onSecondarySubmitted claim invoice {}).run).run s
    let cancelled := ((onSecondaryCancelled claim invoice).run).run submitted.2
    submitted.1.toOption.bind Outcome.status? = some .consumed ∧
      cancelled.1.toOption.bind Outcome.status? = some .locked ∧
      reservedAt (s.history claim.docRef) travel = 0 ∧
      reservedAt (cancelled.2.history claim.docRef) travel = 300 ∧
      (s.books.figures (BudgetScope.ofKey travel true)).2.2.2 = 1000 ∧
      (cancelled.2.books.figures (BudgetScope.ofKey travel true)).2.2.2 = 700 := by
  intro claim invoice travel s submitted cancelled
  decide +kernel

end Engine

end Encumbrance
