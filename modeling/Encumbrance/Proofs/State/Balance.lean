import Mathlib
import Encumbrance.Proofs.State.Steps
import Encumbrance.Proofs.State.Totals

/-! # The balance of a document

    No lifecycle state is stored: a document's state is read off the positions of its rows.
    This module proves what every run from an empty ledger keeps of each document's history
    (`Balanced`):

    * no key's reserved sum is negative, and no key's consumption against any set of
      secondary documents is negative;
    * the document never holds a reservation and consumption at once;
    * while it holds a reservation, each key's reserved sum is that key's share of the last
      batch that reserved.

    Each lifecycle event appends one batch; Section 1 reads off each plan what that batch is,
    Section 3 shows each kind of batch keeps the balance, and Section 4 carries it along runs.
    With room for exact sums, the positions the controller computes then show all of it.
-/

namespace Encumbrance

namespace Engine

/-! ## Section 1: What each plan appends -/

section Drafts

variable {e : Engine} {ds : List EntryDraft}

theorem reachPlan_drafts {document : SourceDocument} {context : EventContext}
    (h : (e.reachPlan document context).drafts? = some ds) :
    ∃ ps, ∃ slices : List Slice, positions (e.history document.docRef) = .ok ps ∧
      deriveState ps = .unlocked ∧
      ds = slices.map fun s =>
        EntryDraft.make s.key .reservation s.amount document.docRef document.postingDate := by
  unfold reachPlan at h
  split at h
  · cases h
  split at h
  · cases h
  split at h
  · cases h
  rename_i ps hps
  split at h
  · cases h
  rename_i hstate
  split at h
  · cases h
  rename_i slices _
  split at h
  · cases h
  cases h
  exact ⟨ps, slices, hps, not_not.1 hstate, rfl⟩

theorem submitPlan_drafts {document : SourceDocument} {secondary : SecondaryDocument}
    {context : EventContext} (h : (e.submitPlan document secondary context).drafts? = some ds) :
    ∃ out, ∃ slices : List Slice, outstandingReserved (e.history document.docRef) = .ok out ∧
      ds = (out.map fun (k, amount) =>
          (EntryDraft.make k .release amount document.docRef secondary.postingDate).bookedAgainst
            secondary.docRef) ++
        slices.map fun s =>
          (EntryDraft.make s.key .consumption s.amount document.docRef
            secondary.postingDate).bookedAgainst secondary.docRef := by
  unfold submitPlan at h
  split at h
  · cases h
  split at h
  · cases h
  split at h
  · cases h
  split at h
  · cases h
  rename_i slices _
  split at h
  · cases h
  split at h
  · cases h
  rename_i out hout
  cases h
  exact ⟨out, slices, hout, rfl⟩

theorem rejectPlan_drafts {document : SourceDocument}
    (h : (e.rejectPlan document).drafts? = some ds) :
    ∃ out, outstandingReserved (e.history document.docRef) = .ok out ∧
      ds = out.map fun (k, amount) =>
        EntryDraft.make k .release amount document.docRef document.postingDate := by
  unfold rejectPlan at h
  split at h
  · cases h
  split at h
  · cases h
  rename_i out hout
  split at h
  · cases h
  cases h
  exact ⟨out, hout, rfl⟩

theorem cancelPlan_drafts {document : SourceDocument} {secondary : SecondaryDocument}
    (h : (e.cancelPlan document secondary).drafts? = some ds) :
    ∃ reversed others restore,
      outstandingConsumedAgainst (e.history document.docRef) secondary.docRef = .ok reversed ∧
      positions ((e.history document.docRef).filter (·.against ≠ some secondary.docRef)) =
        .ok others ∧
      restoreOf (e.history document.docRef) (others.any fun p => Decimal.zero < p.consumed) =
        .ok restore ∧
      ds = (reversed.map fun (k, amount) =>
          (EntryDraft.make k .reversal amount document.docRef secondary.postingDate).bookedAgainst
            secondary.docRef) ++
        restore.map fun (k, amount) =>
          EntryDraft.make k .reservation amount document.docRef document.postingDate := by
  unfold cancelPlan at h
  split at h
  · cases h
  split at h
  · cases h
  rename_i reversed hrev
  split at h
  · cases h
  split at h
  · cases h
  rename_i others hothers
  split at h
  · cases h
  rename_i restore hrestore
  cases h
  exact ⟨reversed, others, restore, hrev, hothers, hrestore, rfl⟩

/-- A submission's batch releases and consumes: it reverses nothing. -/
theorem submit_drafts_ne_reversal {out : List (DimensionKey × Decimal)} {slices : List Slice}
    {D secondary : DocumentRef} {p : Date} :
    ∀ d ∈ (out.map fun (k, amount) =>
        (EntryDraft.make k .release amount D p).bookedAgainst secondary) ++
      slices.map (fun s => (EntryDraft.make s.key .consumption s.amount D p).bookedAgainst secondary),
      d.entryType ≠ .reversal := by
  intro d hd
  rcases List.mem_append.1 hd with hd | hd <;> obtain ⟨_, -, rfl⟩ := List.mem_map.1 hd <;> simp

/-- A cancellation's batch reverses and restores: it releases nothing. -/
theorem cancel_drafts_ne_release {reversed restore : List (DimensionKey × Decimal)}
    {D secondary : DocumentRef} {p p' : Date} :
    ∀ d ∈ (reversed.map fun (k, amount) =>
        (EntryDraft.make k .reversal amount D p).bookedAgainst secondary) ++
      restore.map (fun (k, amount) => EntryDraft.make k .reservation amount D p'),
      d.entryType ≠ .release := by
  intro d hd
  rcases List.mem_append.1 hd with hd | hd <;> obtain ⟨_, -, rfl⟩ := List.mem_map.1 hd <;> simp

/-- Every row of a submission's batch is the document's. -/
theorem submit_drafts_source {out : List (DimensionKey × Decimal)} {slices : List Slice}
    {D secondary : DocumentRef} {p : Date} :
    ∀ d ∈ (out.map fun (k, amount) =>
        (EntryDraft.make k .release amount D p).bookedAgainst secondary) ++
      slices.map (fun s => (EntryDraft.make s.key .consumption s.amount D p).bookedAgainst secondary),
      d.source = D := by
  intro d hd
  rcases List.mem_append.1 hd with hd | hd <;> obtain ⟨_, -, rfl⟩ := List.mem_map.1 hd <;> simp

/-- Every row of a cancellation's batch is the document's. -/
theorem cancel_drafts_source {reversed restore : List (DimensionKey × Decimal)}
    {D secondary : DocumentRef} {p p' : Date} :
    ∀ d ∈ (reversed.map fun (k, amount) =>
        (EntryDraft.make k .reversal amount D p).bookedAgainst secondary) ++
      restore.map (fun (k, amount) => EntryDraft.make k .reservation amount D p'),
      d.source = D := by
  intro d hd
  rcases List.mem_append.1 hd with hd | hd <;> obtain ⟨_, -, rfl⟩ := List.mem_map.1 hd <;> simp

/-- The keys of a cancellation's batch are the keys it reverses and restores. -/
theorem cancel_drafts_keys {reversed restore : List (DimensionKey × Decimal)}
    {D secondary : DocumentRef} {p p' : Date} :
    ((reversed.map fun (k, amount) =>
        (EntryDraft.make k .reversal amount D p).bookedAgainst secondary) ++
      restore.map (fun (k, amount) => EntryDraft.make k .reservation amount D p')).map
        EntryDraft.key = (reversed ++ restore).map (·.1) := by
  simp only [List.map_append, List.map_map]
  congr 1

/-- The amounts of a cancellation's batch are the amounts it reverses and restores. -/
theorem cancel_drafts_amounts {reversed restore : List (DimensionKey × Decimal)}
    {D secondary : DocumentRef} {p p' : Date} :
    ((reversed.map fun (k, amount) =>
        (EntryDraft.make k .reversal amount D p).bookedAgainst secondary) ++
      restore.map (fun (k, amount) => EntryDraft.make k .reservation amount D p')).map
        EntryDraft.amount = (reversed ++ restore).map (·.2) := by
  simp only [List.map_append, List.map_map]
  congr 1

/-- The reservations of a cancellation's batch are exactly what it restores. -/
theorem cancel_drafts_reservations {reversed restore : List (DimensionKey × Decimal)}
    {D secondary : DocumentRef} {p p' : Date} :
    (((reversed.map fun (k, amount) =>
        (EntryDraft.make k .reversal amount D p).bookedAgainst secondary) ++
      restore.map (fun (k, amount) => EntryDraft.make k .reservation amount D p')).filter
        fun d : EntryDraft => d.entryType = EntryType.reservation).map
          (fun d : EntryDraft => (d.key, d.amount)) =
      restore := by
  rw [List.filter_append, List.filter_eq_nil_iff.2 fun d hd => ?_,
    List.filter_eq_self.2 fun d hd => ?_, List.nil_append, List.map_map]
  · conv_rhs => rw [← List.map_id restore]
    exact List.map_congr_left fun q _ => rfl
  · obtain ⟨q, -, rfl⟩ := List.mem_map.1 hd
    simp
  · obtain ⟨q, -, rfl⟩ := List.mem_map.1 hd
    simp

/-- What a cancellation restores: nothing, or, when no other consumption remains and nothing is
    reserved, the last reservation. -/
theorem restoreOf_eq {H : List Entry} {other : Bool} {restore : List (DimensionKey × Decimal)}
    (h : restoreOf H other = .ok restore) :
    restore = [] ∨ other = false ∧ outstandingReserved H = .ok [] ∧ restore = lastReservation H := by
  unfold restoreOf at h
  split at h
  · cases h
    exact .inl rfl
  rename_i hother
  split at h
  · cases h
  rename_i out hout
  cases h
  cases out with
  | nil => exact .inr ⟨by simpa using hother, hout, rfl⟩
  | cons q out => exact .inl rfl

theorem supplementPlan_drafts {k : DimensionKey} {amount : Decimal} {source : DocumentRef}
    {postingDate : Date} (h : (supplementPlan k amount source postingDate).drafts? = some ds) :
    ds = [EntryDraft.make k .supplement amount source postingDate] := by
  unfold supplementPlan at h
  split at h
  · cases h
  · cases h
    rfl

theorem reclassPlan_drafts {source target : DimensionKey} {amount : Decimal} {doc : DocumentRef}
    {postingDate : Date} {principal : Principal}
    (h : (reclassPlan source target amount doc postingDate principal).drafts? = some ds) :
    ds = [EntryDraft.reclassing source .out amount doc postingDate,
      EntryDraft.reclassing target .inbound amount doc postingDate] := by
  unfold reclassPlan at h
  split at h
  · cases h
  split at h
  · cases h
  · cases h
    rfl

end Drafts

end Engine

/-! ## Section 2: The balance of a history -/

/-- What every run keeps of a document's history. -/
structure Balanced (H : List Entry) : Prop where
  /-- No key's reserved sum is negative. -/
  reserved_nonneg : ∀ k, 0 ≤ reservedAt H k
  /-- No key's consumption against any set of counter-documents is negative. -/
  consumed_nonneg : ∀ (T : Option DocumentRef → Bool) k,
    0 ≤ consumedAt (H.filter fun x => T x.against) k
  /-- A reservation and consumption are never held at once. -/
  exclusive : (∃ k, 0 < reservedAt H k) → ∀ k, consumedAt H k ≤ 0
  /-- A held reservation is, key by key, the last batch that reserved. -/
  last : (∃ k, 0 < reservedAt H k) → ∀ k, reservedAt H k = amountAt (lastReservation H) k

theorem balanced_nil : Balanced [] where
  reserved_nonneg _ := le_rfl
  consumed_nonneg _ _ := le_rfl
  exclusive _ _ := le_rfl
  last := fun ⟨_, hk⟩ => absurd hk (lt_irrefl 0)

section Balanced

variable {H es : List Entry} {ds : List EntryDraft}

theorem Balanced.consumedAt_nonneg (hb : Balanced H) (k : DimensionKey) : 0 ≤ consumedAt H k := by
  simpa using hb.consumed_nonneg (fun _ => true) k

/-- The consumption against the counter-documents `T` selects splits into that against one
    counter-document `a` and that against the others. -/
theorem consumedAt_filter_split (H : List Entry) (T : Option DocumentRef → Bool)
    (a : Option DocumentRef) (k : DimensionKey) :
    consumedAt (H.filter fun x => T x.against) k =
      consumedAt (H.filter fun x => T x.against && x.against = a) k +
        consumedAt (H.filter fun x => T x.against && x.against ≠ a) k := by
  unfold consumedAt
  rw [← List.sum_map_filter_add_sum_map_filter_not (fun x => x.against = a) _
    (H.filter fun x => T x.against)]
  simp [List.filter_filter, Bool.and_comm]

/-- When `T` selects the counter-document `a`, the consumption against `T` is that against `a`
    and that against the others `T` selects. -/
theorem consumedAt_filter_of_selects (H : List Entry) {T : Option DocumentRef → Bool}
    {a : Option DocumentRef} (hT : T a = true) (k : DimensionKey) :
    consumedAt (H.filter fun x => T x.against) k =
      consumedAt (H.filter fun x => x.against = a) k +
        consumedAt (H.filter fun x => T x.against && x.against ≠ a) k := by
  rw [consumedAt_filter_split H T a k]
  congr 2
  refine List.filter_congr fun x _ => ?_
  by_cases hx : x.against = a
  · simp [hx, hT]
  · simp [hx]

/-- All consumption is that against one counter-document and that against the others. -/
theorem consumedAt_against_split (H : List Entry) (a : Option DocumentRef) (k : DimensionKey) :
    consumedAt H k = consumedAt (H.filter fun x => x.against = a) k +
      consumedAt (H.filter fun x => x.against ≠ a) k := by
  simpa using consumedAt_filter_of_selects H (T := fun _ => true) (a := a) rfl k

/-- A history whose sums and last reservation are those of a balanced one is balanced. -/
theorem Balanced.of_eq {H' : List Entry} (hb : Balanced H)
    (hR : ∀ k, reservedAt H' k = reservedAt H k)
    (hC : ∀ (T : Option DocumentRef → Bool) k,
      consumedAt (H'.filter fun x => T x.against) k = consumedAt (H.filter fun x => T x.against) k)
    (hlast : lastReservation H' = lastReservation H) : Balanced H' := by
  have hCall : ∀ k, consumedAt H' k = consumedAt H k := fun k => by simpa using hC (fun _ => true) k
  refine ⟨fun k => ?_, fun T k => ?_, fun hpos k => ?_, fun hpos k => ?_⟩
  · rw [hR k]; exact hb.reserved_nonneg k
  · rw [hC T k]; exact hb.consumed_nonneg T k
  · rw [hCall k]
    exact hb.exclusive (by simpa only [hR] using hpos) k
  · rw [hR k, hlast]
    exact hb.last (by simpa only [hR] using hpos) k

/-- A history where nothing is reserved and no consumption is negative is balanced. -/
theorem balanced_of_reserved_zero {H' : List Entry} (hR : ∀ k, reservedAt H' k = 0)
    (hC : ∀ (T : Option DocumentRef → Bool) k, 0 ≤ consumedAt (H'.filter fun x => T x.against) k) :
    Balanced H' where
  reserved_nonneg k := by rw [hR k]
  consumed_nonneg := hC
  exclusive := fun ⟨k, hk⟩ => absurd hk (by rw [hR k]; exact lt_irrefl 0)
  last := fun ⟨k, hk⟩ => absurd hk (by rw [hR k]; exact lt_irrefl 0)

/-- Releasing what is outstanding leaves nothing reserved. -/
theorem Balanced.release_outstanding {S : ℕ} {out : List (DimensionKey × Decimal)} (hb : Balanced H)
    (hroom : Decimal.Room S (H.map Entry.amount)) (hout : outstandingReserved H = .ok out)
    (k : DimensionKey) : reservedAt H k + -1 * amountAt out k = 0 := by
  rw [(outstandingReserved_spec hroom hout).1 k]
  have := hb.reserved_nonneg k
  split_ifs <;> linarith

/-! ## Section 3: Each kind of batch keeps the balance -/

/-- Reserving for an unlocked document: the batch becomes the last reservation, and the
    reserved sums are its amounts. -/
theorem Balanced.append_reservations (hb : Balanced H) (hw : Written H ds es)
    (hR : ∀ k, reservedAt H k ≤ 0) (hC : ∀ k, consumedAt H k ≤ 0)
    (hds : ∀ d ∈ ds, d.entryType = .reservation) : Balanced (H ++ es) := by
  have hR0 : ∀ k, reservedAt H k = 0 := fun k => le_antisymm (hR k) (hb.reserved_nonneg k)
  have hes : ∀ x ∈ es, x.entryType = .reservation := fun x hx => by
    simpa using hds _ (hw.mem_draft hx)
  -- reservations consume nothing
  have hCes : ∀ (T : Option DocumentRef → Bool) k,
      consumedAt (es.filter fun x => T x.against) k = 0 :=
    hw.consumedAt_filter_eq_zero fun d hd => by simp [hds d hd, consumedTypes]
  -- the batch is the last reservation, and what it reserves
  have hlast : ∀ k, reservedAt es k = amountAt (lastReservation (H ++ es)) k := by
    intro k
    obtain ⟨x, hx⟩ := List.exists_mem_of_ne_nil es hw.nonempty
    rw [hw.lastReservation_append ⟨x, hx, hes x hx⟩,
      List.filter_eq_self.2 fun d hd => by simp [hds d hd], hw.reservedAt_eq, amountAt_eq_sum,
      List.map_map]
    refine congrArg List.sum (List.map_congr_left fun d hd => ?_)
    exact EntryDraft.reservedIn_of_reservation (hw.sound_draft d hd) (hds d hd)
  refine ⟨fun k => ?_, fun T k => ?_, fun _ k => ?_, fun _ k => ?_⟩
  · rw [reservedAt_append, hR0 k, zero_add]
    exact hw.reservedAt_nonneg (fun d hd => by simp [hds d hd]) k
  · rw [List.filter_append, consumedAt_append, hCes T k, add_zero]
    exact hb.consumed_nonneg T k
  · have hall := hCes (fun _ => true) k
    rw [List.filter_true] at hall
    rw [consumedAt_append, hall, add_zero]
    exact hC k
  · rw [reservedAt_append, hR0 k, zero_add]
    exact hlast k

/-- Supplements and reclasses touch neither sum nor the last reservation. -/
theorem Balanced.append_budget (hb : Balanced H) (hw : Written H ds es)
    (hds : ∀ d ∈ ds, d.entryType = .supplement ∨ d.entryType = .reclass) : Balanced (H ++ es) := by
  have hnr : ∀ d ∈ ds, d.entryType ∉ reservedTypes := fun d hd => by
    rcases hds d hd with h | h <;> simp [h, reservedTypes]
  have hnc : ∀ d ∈ ds, d.entryType ∉ consumedTypes := fun d hd => by
    rcases hds d hd with h | h <;> simp [h, consumedTypes]
  refine hb.of_eq (fun k => ?_) (fun T k => ?_) (lastReservation_append_of_forall fun x hx => ?_)
  · rw [reservedAt_append, hw.reservedAt_eq_zero hnr k, add_zero]
  · rw [List.filter_append, consumedAt_append, hw.consumedAt_filter_eq_zero hnc T k, add_zero]
  · rcases hds _ (hw.mem_draft hx) with h | h <;> simp_all

/-- Releasing all that is outstanding, alongside drafts that neither reserve nor release, leaves
    nothing reserved. -/
theorem Balanced.reservedAt_release_all {S : ℕ} {out : List (DimensionKey × Decimal)}
    {rels rest : List EntryDraft} (hb : Balanced H) (hroom : Decimal.Room S (H.map Entry.amount))
    (hw : Written H (rels ++ rest) es) (hout : outstandingReserved H = .ok out)
    (hrels : ∀ k, (rels.map (·.reservedIn k)).sum = -1 * amountAt out k)
    (hrest : ∀ d ∈ rest, d.entryType ∉ reservedTypes) (k : DimensionKey) :
    reservedAt (H ++ es) k = 0 := by
  have hzero : (rest.map (·.reservedIn k)).sum = 0 :=
    List.sum_eq_zero fun q hq => by
      obtain ⟨d, hd, rfl⟩ := List.mem_map.1 hq
      exact EntryDraft.reservedIn_of_not_mem (hrest d hd)
  rw [reservedAt_append, hw.reservedAt_eq, List.map_append, List.sum_append, hrels k, hzero,
    add_zero]
  exact hb.release_outstanding hroom hout k

/-- Submitting a secondary: the outstanding reservation is released and the consumption
    booked, so nothing stays reserved. -/
theorem Balanced.append_submit {S : ℕ} {out : List (DimensionKey × Decimal)} {slices : List Slice}
    {D secondary : DocumentRef} {p : Date} (hb : Balanced H)
    (hroom : Decimal.Room S (H.map Entry.amount)) (hw : Written H ds es)
    (hout : outstandingReserved H = .ok out)
    (hds : ds = (out.map fun (k, amount) =>
        (EntryDraft.make k .release amount D p).bookedAgainst secondary) ++
      slices.map fun s => (EntryDraft.make s.key .consumption s.amount D p).bookedAgainst secondary) :
    Balanced (H ++ es) := by
  have hnorev : ∀ d ∈ ds, d.entryType ≠ .reversal := hds ▸ Engine.submit_drafts_ne_reversal
  subst hds
  -- consumptions neither reserve nor release
  refine balanced_of_reserved_zero (hb.reservedAt_release_all hroom hw hout
    (fun k => sum_map_keyed fun q => by cases q; simp) fun d hd => ?_) (fun T k => ?_)
  · obtain ⟨s, -, rfl⟩ := List.mem_map.1 hd
    simp [reservedTypes]
  · rw [List.filter_append, consumedAt_append]
    have hnew := hw.consumedAt_filter_nonneg hnorev T k
    have hold := hb.consumed_nonneg T k
    linarith

/-- Rejecting or reopening: the outstanding reservation is released. -/
theorem Balanced.append_reject {S : ℕ} {out : List (DimensionKey × Decimal)} {D : DocumentRef}
    {p : Date} (hb : Balanced H) (hroom : Decimal.Room S (H.map Entry.amount))
    (hw : Written H ds es) (hout : outstandingReserved H = .ok out)
    (hds : ds = out.map fun (k, amount) => EntryDraft.make k .release amount D p) :
    Balanced (H ++ es) := by
  have hnorev : ∀ d ∈ ds, d.entryType ≠ .reversal := by
    intro d hd
    rw [hds, List.mem_map] at hd
    obtain ⟨⟨k, a⟩, -, rfl⟩ := hd
    simp
  have hw' : Written H ((out.map fun (k, amount) => EntryDraft.make k .release amount D p) ++ [])
      es := by
    rw [List.append_nil, ← hds]
    exact hw
  refine balanced_of_reserved_zero (hb.reservedAt_release_all hroom hw' hout
    (fun k => sum_map_keyed fun q => by cases q; simp) fun d hd => absurd hd List.not_mem_nil)
    (fun T k => ?_)
  rw [List.filter_append, consumedAt_append]
  have hnew := hw.consumedAt_filter_nonneg hnorev T k
  have hold := hb.consumed_nonneg T k
  linarith

/-! ### What a cancellation does to the sums -/

section Cancel

variable {S : ℕ} {reversed restore : List (DimensionKey × Decimal)} {D secondary : DocumentRef}
  {p p' : Date}

/-- The reversals take back exactly the consumption against the secondary. -/
theorem Balanced.amountAt_reversed (hb : Balanced H) (hroom : Decimal.Room S (H.map Entry.amount))
    (hrev : outstandingConsumedAgainst H secondary = .ok reversed) (k : DimensionKey) :
    amountAt reversed k = consumedAt (H.filter fun x => x.against = some secondary) k := by
  have hamt := (outstandingConsumedAgainst_spec hroom hrev).1
  have hnn : 0 ≤ consumedAt (H.filter fun x => x.against = some secondary) k :=
    hb.consumed_nonneg (fun a => a = some secondary) k
  rw [hamt k]
  split_ifs <;> linarith

/-- What a cancellation restores: nothing, or the last reservation when nothing else is consumed
    and nothing is reserved. -/
theorem Balanced.restore_cases {others : List Position} (hb : Balanced H)
    (hroom : Decimal.Room S (H.map Entry.amount))
    (hothers : positions (H.filter (·.against ≠ some secondary)) = .ok others)
    (hrestore : Engine.restoreOf H (others.any fun p => Decimal.zero < p.consumed) = .ok restore) :
    restore = [] ∨
      ((∀ k, consumedAt (H.filter fun x => x.against ≠ some secondary) k ≤ 0) ∧
        (∀ k, reservedAt H k = 0) ∧ restore = lastReservation H) := by
  rcases Engine.restoreOf_eq hrestore with h0 | ⟨hother, hout, hl⟩
  · exact .inl h0
  right
  obtain ⟨os, hos, hpos⟩ := positions_exact (hroom.sublist (List.filter_sublist.map Entry.amount))
  rw [hothers] at hos
  cases hos
  have hnone := hpos.any_pos hpos.consumed fun _ => consumedAt_of_not_mem
  rw [hother] at hnone
  have hempty := (outstandingReserved_spec hroom hout).2
  refine ⟨fun k => not_lt.1 fun hk => ?_, fun k => ?_, hl⟩
  · exact absurd (hnone.2 ⟨k, hk⟩) (by simp)
  · exact le_antisymm (hempty.1 rfl k) (hb.reserved_nonneg k)

/-- A cancellation's batch adds to the reserved sums what it restores. -/
theorem Written.reservedAt_cancel (hw : Written H ds es)
    (hds : ds = (reversed.map fun (k, amount) =>
        (EntryDraft.make k .reversal amount D p).bookedAgainst secondary) ++
      restore.map fun (k, amount) => EntryDraft.make k .reservation amount D p')
    (k : DimensionKey) : reservedAt (H ++ es) k = reservedAt H k + amountAt restore k := by
  have hrevR : ((reversed.map fun (k, amount) =>
      (EntryDraft.make k .reversal amount D p).bookedAgainst secondary).map
        (·.reservedIn k)).sum = 0 := by
    refine List.sum_eq_zero fun q hq => ?_
    obtain ⟨d, hd, rfl⟩ := List.mem_map.1 hq
    obtain ⟨q', -, rfl⟩ := List.mem_map.1 hd
    exact EntryDraft.reservedIn_of_not_mem (by simp [reservedTypes])
  have hresR : ((restore.map fun (k, amount) =>
      EntryDraft.make k .reservation amount D p').map (·.reservedIn k)).sum =
        1 * amountAt restore k :=
    sum_map_keyed fun q => by cases q; simp
  rw [reservedAt_append, hw.reservedAt_eq, hds, List.map_append, List.sum_append, hrevR, hresR,
    zero_add, one_mul]

/-- A cancellation's batch takes the reversed amounts from the consumption against the
    counter-documents `T` selects, when `T` selects the secondary. -/
theorem Written.consumedAt_cancel (hw : Written H ds es)
    (hds : ds = (reversed.map fun (k, amount) =>
        (EntryDraft.make k .reversal amount D p).bookedAgainst secondary) ++
      restore.map fun (k, amount) => EntryDraft.make k .reservation amount D p')
    (T : Option DocumentRef → Bool) (k : DimensionKey) :
    consumedAt ((H ++ es).filter fun x => T x.against) k =
      consumedAt (H.filter fun x => T x.against) k -
        if T (some secondary) then amountAt reversed k else 0 := by
  have hres0 : (((restore.map fun (k, amount) =>
      EntryDraft.make k .reservation amount D p').filter fun d => T d.against).map
        (·.consumedIn k)).sum = 0 := by
    refine List.sum_eq_zero fun q hq => ?_
    obtain ⟨d, hd, rfl⟩ := List.mem_map.1 hq
    obtain ⟨q', -, rfl⟩ := List.mem_map.1 (List.mem_of_mem_filter hd)
    exact EntryDraft.consumedIn_of_not_mem (by simp [consumedTypes])
  -- every reversal is against the secondary
  have hrevT : (((reversed.map fun (k, amount) =>
      (EntryDraft.make k .reversal amount D p).bookedAgainst secondary).filter
        fun d => T d.against).map (·.consumedIn k)).sum =
      if T (some secondary) then -1 * amountAt reversed k else 0 := by
    split_ifs with hT
    · rw [List.filter_eq_self.2 fun d hd => ?_]
      · exact sum_map_keyed fun q => by cases q; simp
      · obtain ⟨q, -, rfl⟩ := List.mem_map.1 hd
        simpa using hT
    · rw [List.filter_eq_nil_iff.2 fun d hd => ?_]
      · rfl
      · obtain ⟨q, -, rfl⟩ := List.mem_map.1 hd
        simpa using hT
  rw [List.filter_append, consumedAt_append, hw.consumedAt_filter, hds, List.filter_append,
    List.map_append, List.sum_append, hrevT, hres0, add_zero]
  split_ifs <;> ring

end Cancel

/-- Cancelling a secondary: its consumption is reversed, and what is restored is nothing or,
    when nothing else is consumed and nothing is reserved, the last reservation itself. -/
theorem Balanced.append_cancel {S : ℕ} {reversed restore : List (DimensionKey × Decimal)}
    {others : List Position} {D secondary : DocumentRef} {p p' : Date} (hb : Balanced H)
    (hsound : ∀ x ∈ H, x.draft.validate = .ok ()) (hroom : Decimal.Room S (H.map Entry.amount))
    (hw : Written H ds es) (hrev : outstandingConsumedAgainst H secondary = .ok reversed)
    (hothers : positions (H.filter (·.against ≠ some secondary)) = .ok others)
    (hrestore : Engine.restoreOf H (others.any fun p => Decimal.zero < p.consumed) = .ok restore)
    (hds : ds = (reversed.map fun (k, amount) =>
        (EntryDraft.make k .reversal amount D p).bookedAgainst secondary) ++
      restore.map fun (k, amount) => EntryDraft.make k .reservation amount D p') :
    Balanced (H ++ es) := by
  have hcases := hb.restore_cases hroom hothers hrestore
  have hR := hw.reservedAt_cancel hds
  -- the consumption against `T` loses that against the secondary, when `T` selects it
  have hC : ∀ (T : Option DocumentRef → Bool) k,
      consumedAt ((H ++ es).filter fun x => T x.against) k =
        consumedAt (H.filter fun x => T x.against) k -
          if T (some secondary) then consumedAt (H.filter fun x => x.against = some secondary) k
          else 0 := fun T k => by
    rw [hw.consumedAt_cancel hds T k, hb.amountAt_reversed hroom hrev k]
  -- the batch's reservations are exactly what is restored
  have hfilt : (ds.filter (·.entryType = .reservation)).map (fun d => (d.key, d.amount)) =
      restore := by
    rw [hds]
    exact Engine.cancel_drafts_reservations
  -- so the last reservation stays what it was
  have hlast : lastReservation (H ++ es) = lastReservation H := by
    by_cases hres : ∃ x ∈ es, x.entryType = .reservation
    · rw [hw.lastReservation_append hres, hfilt]
      rcases hcases with h0 | ⟨-, -, hl⟩
      · -- nothing restored means no reservation in the batch
        obtain ⟨x, hx, hxt⟩ := hres
        have hnil := hfilt.trans h0
        rw [List.map_eq_nil_iff, List.filter_eq_nil_iff] at hnil
        exact absurd (decide_eq_true hxt) (hnil _ (hw.mem_draft hx))
      · exact hl
    · exact lastReservation_append_of_forall fun x hx hxt => hres ⟨x, hx, hxt⟩
  have hCSnn : ∀ k, 0 ≤ consumedAt (H.filter fun x => x.against = some secondary) k :=
    fun k => hb.consumed_nonneg (fun a => a = some secondary) k
  refine ⟨fun k => ?_, fun T k => ?_, fun hpos k => ?_, fun hpos k => ?_⟩
  · rw [hR k]
    rcases hcases with h0 | ⟨-, hR0, hl⟩
    · rw [h0, amountAt_nil, add_zero]
      exact hb.reserved_nonneg k
    · rw [hR0 k, zero_add, hl]
      exact amountAt_lastReservation_nonneg hsound k
  · -- taking back the secondary's consumption leaves the rest of what `T` selects
    rw [hC T k]
    split_ifs with hT
    · rw [consumedAt_filter_of_selects H hT k, add_sub_cancel_left]
      exact hb.consumed_nonneg (fun a => T a && a ≠ some secondary) k
    · rw [sub_zero]
      exact hb.consumed_nonneg T k
  · have hall := hC (fun _ => true) k
    simp only [List.filter_true, if_true] at hall
    rw [hall]
    rcases hcases with h0 | ⟨hCO, -, -⟩
    · -- nothing restored: the reservation was held before, so nothing was consumed
      have hpos' : ∃ k, 0 < reservedAt H k := by simpa [hR, h0] using hpos
      have hC0 := hb.exclusive hpos' k
      linarith [hCSnn k]
    · -- what stays consumed is against other documents, and there is none
      rw [consumedAt_against_split H (some secondary) k, add_sub_cancel_left]
      exact hCO k
  · rw [hlast, hR k]
    rcases hcases with h0 | ⟨-, hR0, hl⟩
    · have hpos' : ∃ k, 0 < reservedAt H k := by simpa [hR, h0] using hpos
      rw [h0, amountAt_nil, add_zero]
      exact hb.last hpos' k
    · rw [hR0 k, zero_add, hl]

end Balanced

/-! ## Section 4: Along every run -/

namespace Engine

/-- What every run from an empty ledger keeps: fresh batch numbers, sound rows, and every
    document's history balanced. -/
structure BalanceInv (e : Engine) : Prop where
  fresh : e.books.ledger.BatchesFresh
  sound : ∀ x ∈ e.books.ledger.entries, x.draft.validate = .ok ()
  history : ∀ D, Balanced (e.history D)

theorem balanceInv_of_empty {e : Engine} (h : e.books.ledger = {}) : e.BalanceInv where
  fresh := h ▸ Ledger.batchesFresh_empty
  sound x hx := by rw [h] at hx; cases hx
  history D := by
    have hnil : e.history D = [] := by simp [history, Ledger.select, h]
    rw [hnil]
    exact balanced_nil

/-- A request's batch keeps the balance of its document's history, while the ledger before it
    has room for exact sums. -/
theorem BalanceInv.append_batch {S : ℕ} {c : Request} {e : Engine} {D : DocumentRef}
    {ds : List EntryDraft} {es : List Entry} (hinv : e.BalanceInv)
    (hroom : Decimal.Room S (e.books.ledger.entries.map Entry.amount))
    (hsrc : c.source? = some D) (hds : c.batch? e = some ds) (hw : Written (e.history D) ds es) :
    Balanced (e.history D ++ es) := by
  have hb := hinv.history D
  have hroomH : Decimal.Room S ((e.history D).map Entry.amount) :=
    hroom.sublist (List.filter_sublist.map Entry.amount)
  have hsoundH : ∀ x ∈ e.history D, x.draft.validate = .ok () :=
    fun x hx => hinv.sound x (List.mem_of_mem_filter hx)
  -- one case per request, each read off its plan
  cases c with
  | event ev =>
    -- the event's own document is the one whose history grows
    cases ev <;> simp only [Request.source?, LifecycleEvent.document, Option.some.injEq] at hsrc <;>
      subst hsrc
    case reachedTargetState document context =>
      simp only [Request.batch?, Request.plan?, Option.bind_some, Plan.drafts?_map] at hds
      obtain ⟨ps, slices, hps, hstate, rfl⟩ := reachPlan_drafts hds
      obtain ⟨ps', hps', hpos⟩ := positions_exact hroomH
      rw [hps] at hps'
      cases hps'
      obtain ⟨hR, hC⟩ := hpos.deriveState_eq_unlocked.1 hstate
      refine hb.append_reservations hw hR hC fun d hd => ?_
      obtain ⟨s, -, rfl⟩ := List.mem_map.1 hd
      rfl
    case secondarySubmitted document secondary context =>
      simp only [Request.batch?, Request.plan?, Option.bind_some, Plan.drafts?_map] at hds
      obtain ⟨out, slices, hout, rfl⟩ := submitPlan_drafts hds
      exact hb.append_submit hroomH hw hout rfl
    case rejectedOrReopened document context =>
      simp only [Request.batch?, Request.plan?, Option.bind_some, Plan.drafts?_map] at hds
      obtain ⟨out, hout, rfl⟩ := rejectPlan_drafts hds
      exact hb.append_reject hroomH hw hout rfl
    case secondaryCancelled document secondary context =>
      simp only [Request.batch?, Request.plan?, Option.bind_some, Plan.drafts?_map] at hds
      obtain ⟨reversed, others, restore, hrev, hothers, hrestore, rfl⟩ := cancelPlan_drafts hds
      exact hb.append_cancel hsoundH hroomH hw hrev hothers hrestore rfl
  | supplement k amount source postingDate =>
    simp only [Request.batch?, Request.plan?, Option.bind_some, Plan.drafts?_map] at hds
    rw [supplementPlan_drafts hds] at hw
    exact hb.append_budget hw fun d hd => by simp at hd; simp [hd]
  | reclass source target amount doc postingDate principal =>
    simp only [Request.batch?, Request.plan?, Option.bind_some, Plan.drafts?_map] at hds
    rw [reclassPlan_drafts hds] at hw
    exact hb.append_budget hw fun d hd => by
      rcases List.mem_pair.1 hd with rfl | rfl <;> simp [EntryDraft.reclassing]
  | reloadConfig config => cases hds

/-- One request keeps the invariant, while the ledger after it has room for exact sums. -/
theorem BalanceInv.step {S : ℕ} (c : Request) {e : Engine} (hinv : e.BalanceInv)
    (hroom : Decimal.Room S ((c.step e).books.ledger.entries.map Entry.amount)) :
    (c.step e).BalanceInv where
  fresh := c.step_batchesFresh hinv.fresh
  sound := c.step_sound hinv.sound
  history D := by
    -- the ledger before is a prefix of the one after, so it has room too
    have hroom₀ : Decimal.Room S (e.books.ledger.entries.map Entry.amount) :=
      hroom.sublist ((c.step_extends e).sublist.map Entry.amount)
    rcases c.step_history hinv.fresh D with h | ⟨ds, es, hsrc, hds, hw, h⟩
    · rw [h]
      exact hinv.history D
    · rw [h]
      exact hinv.append_batch hroom₀ hsrc hds hw

end Engine

namespace Request

theorem runAll_append (cs : List Request) (c : Request) (e : Engine) :
    runAll (cs ++ [c]) e = c.step (runAll cs e) := by
  simp [runAll, List.foldl_append]

/-- The ledger only grows along a run. -/
theorem runAll_extends (cs : List Request) (e : Engine) :
    e.books.ledger.entries <+: (runAll cs e).books.ledger.entries := by
  induction cs using List.reverseRecOn with
  | nil => exact List.prefix_refl _
  | append_singleton cs c ih =>
    rw [runAll_append]
    exact ih.trans (c.step_extends _)

end Request

/-- Every run keeps the invariant, while the final ledger has room for exact sums. -/
theorem Engine.BalanceInv.runAll {S : ℕ} (cs : List Request) {e : Engine} (hinv : e.BalanceInv)
    (hroom : Decimal.Room S ((Request.runAll cs e).books.ledger.entries.map Entry.amount)) :
    (Request.runAll cs e).BalanceInv := by
  -- induction from the end of the run: every earlier ledger is a prefix of the final one
  induction cs using List.reverseRecOn with
  | nil => exact hinv
  | append_singleton cs c ih =>
    rw [Request.runAll_append] at hroom ⊢
    have hroom' : Decimal.Room S ((Request.runAll cs e).books.ledger.entries.map Entry.amount) :=
      hroom.sublist ((c.step_extends _).sublist.map Entry.amount)
    exact (ih hroom').step c hroom

/-! ## Section 5: What the positions show -/

namespace Engine

/-- What the positions `ps` of document `D` show in `e`: no key reserves a negative amount, no
    key has negative consumption against any one secondary document, the document does not hold
    a reservation and consumption at once, and it holds, key by key, its last reservation when
    its state is reserved and nothing otherwise. -/
structure PositionsBalanced (e : Engine) (D : DocumentRef) (ps : List Position) : Prop where
  reserved_nonneg : ∀ p ∈ ps, Decimal.zero ≤ p.reserved
  consumed_nonneg : ∀ secondary, ∃ qs,
    positions ((e.history D).filter (·.against = some secondary)) = .ok qs ∧
      ∀ q ∈ qs, Decimal.zero ≤ q.consumed
  exclusive : ¬((∃ p ∈ ps, Decimal.zero < p.reserved) ∧ ∃ p ∈ ps, Decimal.zero < p.consumed)
  last : deriveState ps = .reserved →
    ∀ p ∈ ps, p.reserved.val = amountAt (lastReservation (e.history D)) p.key
  released : deriveState ps ≠ .reserved → ∀ p ∈ ps, p.reserved.val = 0

variable {S : ℕ} {e : Engine}

/-- With room, the positions the controller computes show a balanced history. -/
theorem BalanceInv.positionsBalanced (hinv : e.BalanceInv)
    (hroom : Decimal.Room S (e.books.ledger.entries.map Entry.amount)) (D : DocumentRef) :
    ∃ ps, positions (e.history D) = .ok ps ∧ e.PositionsBalanced D ps := by
  have hb := hinv.history D
  have hroomH : Decimal.Room S ((e.history D).map Entry.amount) :=
    hroom.sublist (List.filter_sublist.map Entry.amount)
  obtain ⟨ps, hps, hpos⟩ := positions_exact hroomH
  refine ⟨ps, hps, ⟨fun p hp => ?_, fun secondary => ?_, ?_, fun hst p hp => ?_,
    fun hst p hp => ?_⟩⟩
  · rw [Decimal.le_iff_val, Decimal.val_zero, hpos.reserved p hp]
    exact hb.reserved_nonneg _
  · obtain ⟨qs, hqs, hqpos⟩ := positions_exact (hroomH.sublist (List.filter_sublist.map Entry.amount))
    refine ⟨qs, hqs, fun q hq => ?_⟩
    rw [Decimal.le_iff_val, Decimal.val_zero, hqpos.consumed q hq]
    exact hb.consumed_nonneg (fun a => a = some secondary) q.key
  · rintro ⟨⟨p, hp, hpr⟩, ⟨q, hq, hqc⟩⟩
    rw [Decimal.lt_iff_val, Decimal.val_zero, hpos.reserved p hp] at hpr
    rw [Decimal.lt_iff_val, Decimal.val_zero, hpos.consumed q hq] at hqc
    exact absurd (hb.exclusive ⟨_, hpr⟩ q.key) (not_le.2 hqc)
  · rw [hpos.reserved p hp]
    exact hb.last (hpos.deriveState_eq_reserved.1 hst) p.key
  · -- not reserved: no key's reserved sum is positive, and none is negative
    have hnone : ¬∃ k, 0 < reservedAt (e.history D) k := fun h =>
      hst (hpos.deriveState_eq_reserved.2 h)
    rw [hpos.reserved p hp]
    exact le_antisymm (not_lt.1 fun h => hnone ⟨_, h⟩) (hb.reserved_nonneg _)

/-- With room, no scope's reserved or consumed total is negative. -/
theorem BalanceInv.totals_nonneg (hinv : e.BalanceInv)
    (hroom : Decimal.Room S (e.books.ledger.entries.map Entry.amount)) (s : BudgetScope) :
    (∃ r, e.books.ledger.reservedTotal s = .ok r ∧ Decimal.zero ≤ r) ∧
      ∃ c, e.books.ledger.consumedTotal s = .ok c ∧ Decimal.zero ≤ c := by
  refine ⟨Ledger.total_nonneg hroom s (by simp [reservedTypes]) Entry.abs_outflow
      Entry.outflow_scale fun D k => ?_,
    Ledger.total_nonneg hroom s (by simp [consumedTypes]) (fun x => by simp [Entry.abs_outflow])
      (fun x => Entry.outflow_scale x) fun D k => ?_⟩
  · -- each document's reserved sum for a key
    have hnn := (hinv.history D).reserved_nonneg k
    rw [reservedAt_eq_sum_filter] at hnn
    exact hnn
  · -- each document's consumed sum for a key
    have hnn := (hinv.history D).consumedAt_nonneg k
    rw [consumedAt_eq_sum_filter] at hnn
    exact hnn

end Engine

/-- **Positions stay balanced.** Start from an empty ledger and run any requests: lifecycle
    events of any documents, supplements, reclasses and reloads of the settings, in any order,
    each succeeding or failing. While the amounts of the final ledger have room for exact sums,
    every document's positions show a balanced history (`Engine.PositionsBalanced`), and no
    scope's reserved or consumed total is negative. -/
theorem run_positions_balanced (cs : List Request) {e₀ : Engine} (h₀ : e₀.books.ledger = {})
    {S : ℕ} (hroom : Decimal.Room S ((Request.runAll cs e₀).books.ledger.entries.map Entry.amount)) :
    (∀ D, ∃ ps, positions ((Request.runAll cs e₀).history D) = .ok ps ∧
      (Request.runAll cs e₀).PositionsBalanced D ps) ∧
    ∀ s, (∃ r, (Request.runAll cs e₀).books.ledger.reservedTotal s = .ok r ∧ Decimal.zero ≤ r) ∧
      ∃ c, (Request.runAll cs e₀).books.ledger.consumedTotal s = .ok c ∧ Decimal.zero ≤ c := by
  have hinv := (Engine.balanceInv_of_empty h₀).runAll cs hroom
  exact ⟨hinv.positionsBalanced hroom, hinv.totals_nonneg hroom⟩

/-- A run that reserves an order, invoices it (the hold released, the invoice consumed),
    reserves an expense claim and rejects it, cancels the invoice (the consumption reversed,
    the order's hold restored) and tops up the budget writes eight rows, and keeps every
    document's positions balanced. -/
theorem reserve_invoice_reject_cancel_balanced :
    let travel : DimensionKey := ⟨"ACME", "FY2026", "CC-OPS", "6100-Travel", none, none⟩
    let order : SourceDocument :=
      { docRef := ⟨"Purchase Order", "PO-1"⟩, company := some "ACME", costCenter := "CC-OPS",
        postingDate := ⟨2026, 3, 1⟩, workflowState := "Approved",
        lines := [⟨"6100-Travel", Decimal.ofNat 300⟩] }
    let invoice : SecondaryDocument :=
      { docRef := ⟨"Purchase Invoice", "PINV-1"⟩, postingDate := ⟨2026, 3, 5⟩,
        lines := [⟨"6100-Travel", Decimal.ofNat 200⟩] }
    let claim : SourceDocument :=
      { docRef := ⟨"Expense Claim", "EXP-1"⟩, company := some "ACME", costCenter := "CC-OPS",
        postingDate := ⟨2026, 3, 10⟩, workflowState := "Approved",
        lines := [⟨"6100-Travel", Decimal.ofNat 400⟩] }
    let e₀ : Engine :=
      { directory := [("CC-OPS", "ACME")],
        calendar := [⟨"FY2026", none, ⟨2026, 1, 1⟩, ⟨2026, 12, 31⟩⟩],
        books := { envelopes := EnvelopeBook.ofList [(travel, Decimal.ofNat 1000)] } }
    let cs : List Request :=
      [.event (.reachedTargetState order {}), .event (.secondarySubmitted order invoice {}),
        .event (.reachedTargetState claim {}), .event (.rejectedOrReopened claim {}),
        .event (.secondaryCancelled order invoice {}),
        .supplement travel (Decimal.ofNat 50) ⟨"Budget", "B-1"⟩ ⟨2026, 3, 12⟩]
    e₀.books.ledger = {} ∧
      Decimal.Room 2 ((Request.runAll cs e₀).books.ledger.entries.map Entry.amount) ∧
      (Request.runAll cs e₀).books.ledger.entries.length = 8 ∧
      ((∀ D, ∃ ps, positions ((Request.runAll cs e₀).history D) = .ok ps ∧
        (Request.runAll cs e₀).PositionsBalanced D ps) ∧
      ∀ s, (∃ r, (Request.runAll cs e₀).books.ledger.reservedTotal s = .ok r ∧ Decimal.zero ≤ r) ∧
        ∃ c, (Request.runAll cs e₀).books.ledger.consumedTotal s = .ok c ∧ Decimal.zero ≤ c) := by
  intro travel order invoice claim e₀ cs
  -- the run is evaluated by the kernel: its rows have two places and fit together
  have hroom : Decimal.Room 2 ((Request.runAll cs e₀).books.ledger.entries.map Entry.amount) :=
    ⟨by decide, by decide +kernel, by decide +kernel⟩
  exact ⟨rfl, hroom, by decide +kernel, run_positions_balanced cs rfl hroom⟩

end Encumbrance
