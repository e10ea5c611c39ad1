import Mathlib
import Encumbrance.Proofs.State.Positions

/-! # What a batch adds to a history

    Operations write one batch at a time. A document's sums after a batch are its sums before
    plus what the batch's drafts add, and its last reservation is the batch's own reservation
    rows, or the one before when the batch reserves nothing. This module states both for a
    batch `Written` after a history: rows that are their drafts, sound, under one batch number
    that no earlier row has.

    The lifecycle events draft their releases, reversals and restored reservations one per
    keyed amount; such drafts add to each key a multiple of the key's `amountAt`.
-/

namespace Encumbrance

/-! ## Section 1: Keyed amounts -/

theorem amountAt_eq_sum (out : List (DimensionKey × Decimal)) (k : DimensionKey) :
    amountAt out k = (out.map fun q => if q.1 = k then q.2.val else 0).sum := by
  rw [amountAt, List.sum_map_ite]
  simp

@[simp] theorem amountAt_append (out out' : List (DimensionKey × Decimal)) (k : DimensionKey) :
    amountAt (out ++ out') k = amountAt out k + amountAt out' k := by
  simp [amountAt]

/-- Drafts made one per keyed amount, each adding `c` times its amount to its own key, add `c`
    times the key's amount. -/
theorem sum_map_keyed {out : List (DimensionKey × Decimal)} {f : DimensionKey × Decimal → EntryDraft}
    {g : EntryDraft → ℚ} {c : ℚ} {k : DimensionKey}
    (hf : ∀ q, g (f q) = if q.1 = k then c * q.2.val else 0) :
    ((out.map f).map g).sum = c * amountAt out k := by
  rw [amountAt_eq_sum, ← List.sum_map_mul_left, List.map_map]
  congr 1
  refine List.map_congr_left fun q _ => ?_
  simp [hf q, mul_ite]

/-! ## Section 2: What one draft adds -/

namespace EntryDraft

variable {k : DimensionKey}

@[simp] theorem reservedIn_bookedAgainst (d : EntryDraft) (doc : DocumentRef) :
    (d.bookedAgainst doc).reservedIn k = d.reservedIn k := rfl

@[simp] theorem consumedIn_bookedAgainst (d : EntryDraft) (doc : DocumentRef) :
    (d.bookedAgainst doc).consumedIn k = d.consumedIn k := rfl

@[simp] theorem reservedIn_make_reservation (k' : DimensionKey) (a : Decimal) (s : DocumentRef)
    (p : Date) : (make k' .reservation a s p).reservedIn k = if k' = k then a.val else 0 := by
  simp [reservedIn, make_outflow, EntryType.fixedDirection]

@[simp] theorem reservedIn_make_release (k' : DimensionKey) (a : Decimal) (s : DocumentRef)
    (p : Date) : (make k' .release a s p).reservedIn k = if k' = k then -a.val else 0 := by
  simp [reservedIn, make_outflow, EntryType.fixedDirection]

@[simp] theorem consumedIn_make_consumption (k' : DimensionKey) (a : Decimal) (s : DocumentRef)
    (p : Date) : (make k' .consumption a s p).consumedIn k = if k' = k then a.val else 0 := by
  simp [consumedIn, make_outflow, EntryType.fixedDirection]

@[simp] theorem consumedIn_make_reversal (k' : DimensionKey) (a : Decimal) (s : DocumentRef)
    (p : Date) : (make k' .reversal a s p).consumedIn k = if k' = k then -a.val else 0 := by
  simp [consumedIn, make_outflow, EntryType.fixedDirection]

/-- Only reservations and releases move the reserved sum. -/
theorem reservedIn_of_not_mem {d : EntryDraft} (h : d.entryType ∉ reservedTypes) :
    d.reservedIn k = 0 := by
  unfold reservedIn
  split
  · split <;> simp_all [reservedTypes]
  · rfl

/-- Only consumptions and reversals move the consumed sum. -/
theorem consumedIn_of_not_mem {d : EntryDraft} (h : d.entryType ∉ consumedTypes) :
    d.consumedIn k = 0 := by
  unfold consumedIn
  split
  · split <;> simp_all [consumedTypes]
  · rfl

theorem amount_nonneg {d : EntryDraft} (hv : d.validate = .ok ()) : 0 ≤ d.amount.val := by
  have hneg := (validate_ok hv).1
  by_contra hlt
  exact absurd (Decimal.isNegative_iff.2 (not_le.1 hlt)) (by simp [hneg])

/-- A sound draft flows the way its type fixes. -/
theorem outflow_val_of_fixed {d : EntryDraft} (hv : d.validate = .ok ()) {dir : Direction}
    (hdir : d.entryType.fixedDirection = some dir) :
    d.outflow.val = if dir = .inbound then -d.amount.val else d.amount.val := by
  rw [← (validate_ok hv).2 dir hdir]
  unfold outflow
  split <;> simp [*]

/-- A sound reservation adds its amount to its key. -/
theorem reservedIn_of_reservation {d : EntryDraft} (hv : d.validate = .ok ())
    (ht : d.entryType = .reservation) : d.reservedIn k = if d.key = k then d.amount.val else 0 := by
  have hout := outflow_val_of_fixed hv (show d.entryType.fixedDirection = some .out by rw [ht]; rfl)
  simp [reservedIn, ht, hout]

/-- A sound consumption adds its amount to the consumed sum of its key. -/
theorem consumedIn_of_consumption {d : EntryDraft} (hv : d.validate = .ok ())
    (ht : d.entryType = .consumption) : d.consumedIn k = if d.key = k then d.amount.val else 0 := by
  have hout := outflow_val_of_fixed hv
    (show d.entryType.fixedDirection = some .inbound by rw [ht]; rfl)
  simp [consumedIn, ht, hout]

/-- A sound draft other than a release adds nothing negative to the reserved sum. -/
theorem reservedIn_nonneg {d : EntryDraft} (hv : d.validate = .ok ()) (ht : d.entryType ≠ .release) :
    0 ≤ d.reservedIn k := by
  have ha := amount_nonneg hv
  unfold reservedIn
  split
  · cases ht' : d.entryType
    case reservation =>
      rw [outflow_val_of_fixed hv (show d.entryType.fixedDirection = some .out by rw [ht']; rfl)]
      simpa using ha
    case release => exact absurd ht' ht
    all_goals simp
  · exact le_rfl

/-- A sound draft other than a reversal adds nothing negative to the consumed sum. -/
theorem consumedIn_nonneg {d : EntryDraft} (hv : d.validate = .ok ()) (ht : d.entryType ≠ .reversal) :
    0 ≤ d.consumedIn k := by
  have ha := amount_nonneg hv
  unfold consumedIn
  split
  · cases ht' : d.entryType
    case consumption =>
      rw [outflow_val_of_fixed hv (show d.entryType.fixedDirection = some .inbound by rw [ht']; rfl)]
      simpa using ha
    case reversal => exact absurd ht' ht
    all_goals simp
  · exact le_rfl

end EntryDraft

/-! ## Section 3: A written batch -/

/-- The batch `es` written after the history `H` from the drafts `ds`: its rows are the drafts
    in order, all sound, at least one, under one batch number that no row of `H` has. -/
structure Written (H : List Entry) (ds : List EntryDraft) (es : List Entry) : Prop where
  drafts : es.map Entry.draft = ds
  nonempty : es ≠ []
  sound : ∀ x ∈ es, x.draft.validate = .ok ()
  fresh : ∃ b, (∀ x ∈ es, x.batch = b) ∧ ∀ y ∈ H, y.batch ≠ b

section Written

variable {H es : List Entry} {ds : List EntryDraft}

/-- The reserved sum a batch adds is what its drafts add. -/
theorem Written.reservedAt_eq (hw : Written H ds es) (k : DimensionKey) :
    reservedAt es k = (ds.map (·.reservedIn k)).sum := by
  rw [reservedAt, ← hw.drafts, List.map_map]
  rfl

/-- The consumed sum a batch adds against some counter-documents is what its drafts against
    them add. -/
theorem Written.consumedAt_filter (hw : Written H ds es) (T : Option DocumentRef → Bool)
    (k : DimensionKey) :
    consumedAt (es.filter fun x => T x.against) k =
      ((ds.filter fun d => T d.against).map (·.consumedIn k)).sum := by
  rw [consumedAt, ← hw.drafts, List.filter_map, List.map_map]
  rfl

theorem Written.mem_draft (hw : Written H ds es) {x : Entry} (hx : x ∈ es) : x.draft ∈ ds :=
  hw.drafts ▸ List.mem_map_of_mem hx

theorem Written.sound_draft (hw : Written H ds es) : ∀ d ∈ ds, d.validate = .ok () := by
  intro d hd
  rw [← hw.drafts] at hd
  obtain ⟨x, hx, rfl⟩ := List.mem_map.1 hd
  exact hw.sound x hx

/-- A batch without releases adds nothing negative to a reserved sum. -/
theorem Written.reservedAt_nonneg (hw : Written H ds es) (h : ∀ d ∈ ds, d.entryType ≠ .release)
    (k : DimensionKey) : 0 ≤ reservedAt es k := by
  rw [hw.reservedAt_eq]
  refine List.sum_nonneg fun q hq => ?_
  obtain ⟨d, hd, rfl⟩ := List.mem_map.1 hq
  exact EntryDraft.reservedIn_nonneg (hw.sound_draft d hd) (h d hd)

/-- A batch without reversals adds nothing negative to a consumed sum. -/
theorem Written.consumedAt_filter_nonneg (hw : Written H ds es) (h : ∀ d ∈ ds, d.entryType ≠ .reversal)
    (T : Option DocumentRef → Bool) (k : DimensionKey) :
    0 ≤ consumedAt (es.filter fun x => T x.against) k := by
  rw [hw.consumedAt_filter]
  refine List.sum_nonneg fun q hq => ?_
  obtain ⟨d, hd, rfl⟩ := List.mem_map.1 hq
  have hd' := List.mem_of_mem_filter hd
  exact EntryDraft.consumedIn_nonneg (hw.sound_draft d hd') (h d hd')

/-- A batch that neither reserves nor releases leaves the reserved sums alone. -/
theorem Written.reservedAt_eq_zero (hw : Written H ds es) (h : ∀ d ∈ ds, d.entryType ∉ reservedTypes)
    (k : DimensionKey) : reservedAt es k = 0 := by
  rw [hw.reservedAt_eq]
  refine List.sum_eq_zero fun q hq => ?_
  obtain ⟨d, hd, rfl⟩ := List.mem_map.1 hq
  exact EntryDraft.reservedIn_of_not_mem (h d hd)

/-- A batch that neither consumes nor reverses leaves the consumed sums alone. -/
theorem Written.consumedAt_filter_eq_zero (hw : Written H ds es)
    (h : ∀ d ∈ ds, d.entryType ∉ consumedTypes) (T : Option DocumentRef → Bool) (k : DimensionKey) :
    consumedAt (es.filter fun x => T x.against) k = 0 := by
  rw [hw.consumedAt_filter]
  refine List.sum_eq_zero fun q hq => ?_
  obtain ⟨d, hd, rfl⟩ := List.mem_map.1 hq
  exact EntryDraft.consumedIn_of_not_mem (h d (List.mem_of_mem_filter hd))

/-- A batch that reserves nothing leaves the last reservation as it was. -/
theorem lastReservation_append_of_forall (h : ∀ x ∈ es, x.entryType ≠ .reservation) :
    lastReservation (H ++ es) = lastReservation H := by
  have hnone : es.reverse.find? (fun x => decide (x.entryType = .reservation)) = none :=
    List.find?_eq_none.2 fun x hx => by simpa using h x (List.mem_reverse.1 hx)
  have hfilter : ∀ b, es.filter (fun x => x.batch = b && x.entryType = .reservation) = [] :=
    fun b => List.filter_eq_nil_iff.2 fun x hx => by simp [h x hx]
  unfold lastReservation
  rw [List.reverse_append, List.find?_append, hnone, Option.none_or]
  split <;> simp [List.filter_append, hfilter]

/-- The last reservation of sound rows reserves nothing negative. -/
theorem amountAt_lastReservation_nonneg (hsound : ∀ x ∈ H, x.draft.validate = .ok ())
    (k : DimensionKey) : 0 ≤ amountAt (lastReservation H) k := by
  unfold lastReservation
  split
  · exact le_rfl
  · rw [amountAt_eq_sum, List.map_map]
    refine List.sum_nonneg fun q hq => ?_
    obtain ⟨x, hx, rfl⟩ := List.mem_map.1 hq
    have hxa : 0 ≤ x.amount.val := by
      simpa using EntryDraft.amount_nonneg (hsound x (List.mem_of_mem_filter hx))
    simp only [Function.comp_apply]
    split
    · exact hxa
    · exact le_rfl

/-- A fresh batch that reserves becomes the last reservation, with its reservation drafts. -/
theorem Written.lastReservation_append (hw : Written H ds es)
    (h : ∃ x ∈ es, x.entryType = .reservation) :
    lastReservation (H ++ es) = (ds.filter (·.entryType = .reservation)).map fun d => (d.key, d.amount) := by
  obtain ⟨b, hb, hH⟩ := hw.fresh
  -- the latest reservation row is one of the batch's
  have hfind : ∃ x ∈ es, es.reverse.find? (fun x => decide (x.entryType = .reservation)) = some x := by
    cases hf : es.reverse.find? (fun x => decide (x.entryType = .reservation)) with
    | none =>
      obtain ⟨x, hx, hxt⟩ := h
      exact absurd hxt (by simpa using List.find?_eq_none.1 hf x (List.mem_reverse.2 hx))
    | some x => exact ⟨x, List.mem_reverse.1 (List.mem_of_find?_eq_some hf), rfl⟩
  obtain ⟨x, hx, hf⟩ := hfind
  have hHnil : H.filter (fun y => y.batch = b && y.entryType = .reservation) = [] :=
    List.filter_eq_nil_iff.2 fun y hy => by simp [hH y hy]
  have hes : es.filter (fun y => y.batch = b && y.entryType = .reservation) =
      es.filter (fun y => y.entryType = .reservation) :=
    List.filter_congr fun y hy => by simp [hb y hy]
  unfold lastReservation
  rw [List.reverse_append, List.find?_append, hf, Option.some_or]
  simp only [Option.map_some, hb x hx, List.filter_append, hHnil, hes, List.nil_append]
  rw [← hw.drafts, List.filter_map, List.map_map]
  rfl

end Written

end Encumbrance
