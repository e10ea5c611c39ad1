import Mathlib
import Encumbrance.Proofs.Decimal.Rounding
import Encumbrance.Proofs.Ledger.Append
import Encumbrance.Allocation.Slice

/-!
# Settling the rounding residual

Slices rounded one by one need not add up to the document total; `settle` moves the residual
`r = total - Σ slices` onto one slice and then drops the slices of zero. `Settled` lists what
can happen before the zeros go: with no residual, nothing; otherwise the residual is added to
one slice, the last one if it stays nonnegative there and else a largest one, however far below
zero that takes it (`settle_settled`).

With exact arithmetic (`Decimal.Room` over the total and the slices) the settled slices add up
to the total exactly and keep the scale the inputs had (`settle_sliceSum`, `settle_scale_le`).
Nonnegative slices settle into positive ones exactly when the residual is not negative or some
slice is large enough to take it (`settle_pos_iff`).
-/

namespace Encumbrance

open Decimal

/-- The value of a list of slices: the sum of their amounts as numbers. -/
def sliceSum (xs : List Slice) : ℚ := (xs.map fun x => x.amount.val).sum

@[simp] theorem sliceSum_nil : sliceSum [] = 0 := rfl

theorem sliceSum_filter_nonzero (xs : List Slice) :
    sliceSum (xs.filter fun x => !x.amount.isZero) = sliceSum xs := by
  induction xs with
  | nil => rfl
  | cons x xs ih =>
    by_cases hz : x.amount.isZero
    · have : x.amount.val = 0 := isZero_iff_val.1 hz
      simp_all [sliceSum]
    · simp_all [sliceSum]

theorem abs_list_sum_le (xs : List ℚ) : |xs.sum| ≤ (xs.map fun x => |x|).sum := by
  simpa using Multiset.abs_sum_le_sum_abs (s := (xs : Multiset ℚ))

/-- Leaving one entry out of a sum changes it by no more than all the entries weigh. -/
theorem abs_sum_sub_le {xs : List ℚ} {i : ℕ} {x : ℚ} (hx : xs[i]? = some x) :
    |xs.sum - x| ≤ (xs.map fun x => |x|).sum := by
  obtain ⟨hi, rfl⟩ := List.getElem?_eq_some_iff.1 hx
  -- clearing the entry leaves the sum of the others
  have hset : (xs.set i 0).sum = xs.sum - xs[i] := by
    rw [List.sum_set', dif_pos hi]; ring
  have habs : ((xs.set i 0).map fun x => |x|).sum = (xs.map fun x => |x|).sum - |xs[i]| := by
    rw [List.map_set, List.sum_set', dif_pos (by simpa using hi)]; simp; ring
  calc |xs.sum - xs[i]| = |(xs.set i 0).sum| := by rw [hset]
    _ ≤ ((xs.set i 0).map fun x => |x|).sum := abs_list_sum_le _
    _ ≤ (xs.map fun x => |x|).sum := by rw [habs]; linarith [abs_nonneg xs[i]]

/-! ## Section 1: The largest amount -/

theorem keepLarger_spec (best : Option (ℕ × Decimal)) (p : ℕ × Decimal) :
    ∃ q, keepLarger best p = some q ∧ (q = p ∨ best = some q) ∧ p.2.val ≤ q.2.val ∧
      ∀ b, best = some b → b.2.val ≤ q.2.val := by
  cases best with
  | none => exact ⟨p, rfl, .inl rfl, le_rfl, by simp⟩
  | some b =>
    by_cases h : p.2 < b.2
    · exact ⟨b, by simp [keepLarger, h], .inr rfl, (lt_iff_val.1 h).le, by simp⟩
    · refine ⟨p, by simp [keepLarger, h], .inl rfl, le_rfl, ?_⟩
      rintro b' ⟨⟩
      exact not_lt.1 (mt lt_iff_val.2 h)

/-- The search for the largest amount ends on a pair it has read, and no pair it read, nor the
    one it started from, is larger. -/
theorem foldl_keepLarger :
    ∀ (L : List (ℕ × Decimal)) (acc : Option (ℕ × Decimal)), acc.isSome ∨ L ≠ [] →
      ∃ q, L.foldl keepLarger acc = some q ∧ (acc = some q ∨ q ∈ L) ∧
        (∀ p ∈ L, p.2.val ≤ q.2.val) ∧ ∀ b, acc = some b → b.2.val ≤ q.2.val
  | [], acc, h => by
    obtain ⟨b, rfl⟩ := Option.isSome_iff_exists.1 (h.resolve_right (by simp))
    exact ⟨b, rfl, .inl rfl, by simp, by simp⟩
  | p :: L, acc, _ => by
    obtain ⟨q₀, hq₀, hfrom, hp, hacc⟩ := keepLarger_spec acc p
    obtain ⟨q, hq, hfrom', hL, hq₀q⟩ := foldl_keepLarger L (some q₀) (.inl rfl)
    have hle : q₀.2.val ≤ q.2.val := hq₀q q₀ rfl
    refine ⟨q, by rw [List.foldl_cons, hq₀]; exact hq, ?_, ?_, ?_⟩
    · rcases hfrom' with hq' | h
      · obtain rfl := Option.some.inj hq'
        rcases hfrom with rfl | h
        · exact .inr List.mem_cons_self
        · exact .inl h
      · exact .inr (List.mem_cons_of_mem _ h)
    · intro p' hp'
      rcases List.mem_cons.1 hp' with rfl | hp'
      · exact hp.trans hle
      · exact hL p' hp'
    · intro b hb
      exact (hacc b hb).trans hle

/-- The search reads each amount paired with its index in front. -/
theorem lastMaxIndex_eq (xs : List Decimal) :
    lastMaxIndex xs = ((xs.zipIdx.map Prod.swap).foldl keepLarger none).map (·.1) := rfl

/-- A nonempty list has a largest amount, and `lastMaxIndex` finds the index of one. -/
theorem lastMaxIndex_spec {xs : List Decimal} (hne : xs ≠ []) :
    ∃ i, lastMaxIndex xs = some i ∧ ∃ hi : i < xs.length, ∀ x ∈ xs, x.val ≤ xs[i].val := by
  obtain ⟨q, hq, hmem, hmax, -⟩ :=
    foldl_keepLarger (xs.zipIdx.map Prod.swap) none (.inr (by simpa using hne))
  rw [lastMaxIndex_eq, hq]
  obtain ⟨⟨x, i⟩, hxi, rfl⟩ := List.mem_map.1 (hmem.resolve_left (by simp))
  obtain ⟨hi, hx⟩ := List.getElem?_eq_some_iff.1 (List.mem_zipIdx_iff_getElem?.1 hxi)
  refine ⟨i, rfl, hi, fun y hy => ?_⟩
  -- every amount is read at its own index
  obtain ⟨j, hj, rfl⟩ := List.getElem_of_mem hy
  have hread : (j, xs[j]) ∈ xs.zipIdx.map Prod.swap :=
    List.mem_map.2 ⟨(xs[j], j), List.mem_zipIdx_iff_getElem?.2 (by simp [hj]), rfl⟩
  simpa [hx] using hmax _ hread

/-! ## Section 2: Where the residual goes -/

/-- What `settle` makes of slices whose residual is `r`, before it drops the zeros: nothing when
    there is no residual; otherwise the residual added to one slice, the last one when that
    stays nonnegative, and else a largest one. The new amount has scale at most `S`. -/
inductive Settled (slices : List Slice) (r : ℚ) (S : ℕ) : List Slice → Prop
  | unmoved : r = 0 → Settled slices r S slices
  | moved (i : ℕ) (s : Slice) (a : Decimal) :
      slices[i]? = some s → a.val = s.amount.val + r → a.scale ≤ S →
      (i + 1 = slices.length ∧ 0 ≤ a.val ∨ ∀ x ∈ slices, x.amount.val ≤ s.amount.val) →
      Settled slices r S (slices.set i { s with amount := a })

section Exact

variable {S : ℕ} {slices : List Slice} {total : Decimal}

/-- Adding the residual to a slice is exact: the result is the total less the other slices. -/
theorem add_residual_exact (hroom : Room S (total :: slices.map (·.amount))) {i : ℕ} {s : Slice}
    (hs : slices[i]? = some s) {res : Decimal} (hres : res.val = total.val - sliceSum slices)
    (hscale : res.scale ≤ S) :
    ∃ a, Decimal.add s.amount res = .ok a ∧ a.val = s.amount.val + res.val ∧ a.scale ≤ S := by
  have hsv : (slices.map fun x => x.amount.val)[i]? = some s.amount.val := by simp [hs]
  have hothers := abs_sum_sub_le hsv
  have hfit : |s.amount.val + res.val| * 10 ^ S < mantissaLimit := by
    refine hroom.fits_of_le ?_
    rw [hres, sliceSum]
    calc |s.amount.val + (total.val - (slices.map fun x => x.amount.val).sum)|
        = |total.val - ((slices.map fun x => x.amount.val).sum - s.amount.val)| := by ring_nf
      _ ≤ |total.val| + |(slices.map fun x => x.amount.val).sum - s.amount.val| := abs_sub _ _
      _ ≤ ((total :: slices.map (·.amount)).map fun x => |x.val|).sum := by
        have heq : ((slices.map fun x => x.amount.val).map fun x => |x|) =
            ((slices.map (·.amount)).map fun x => |x.val|) := by
          simp only [List.map_map]; rfl
        rw [List.map_cons, List.sum_cons, ← heq]
        linarith
  have hmem : s.amount ∈ total :: slices.map (·.amount) :=
    List.mem_cons_of_mem _ (List.mem_map_of_mem (List.mem_of_getElem? hs))
  obtain ⟨a, ha, hav, has⟩ :=
    combine_exact_of_fits false (hroom.scales _ hmem) hscale hroom.scale_le (by simpa using hfit)
  exact ⟨a, by simp [add, ha], by simpa using hav, has⟩

/-- Everything `settle` can do: under exact arithmetic it computes the residual exactly,
    settles it as `Settled` says, and drops the zeros. -/
theorem settle_settled {out : List Slice} (h : settle slices total = .ok out)
    (hroom : Room S (total :: slices.map (·.amount))) (hempty : slices = [] → total.val = 0) :
    ∃ adjusted, Settled slices (total.val - sliceSum slices) S adjusted ∧
      out = adjusted.filter fun x => !x.amount.isZero := by
  have hpre : Room S (slices.map (·.amount)) := hroom.sublist (List.sublist_cons_self _ _)
  obtain ⟨sum, hsum, hsv, hss⟩ := sum_exact hpre
  have hsumle : |sum.val| ≤ ((slices.map (·.amount)).map fun x => |x.val|).sum := by
    have heq : (((slices.map (·.amount)).map val).map fun x => |x|) =
        ((slices.map (·.amount)).map fun x => |x.val|) := by
      simp only [List.map_map]; rfl
    rw [hsv, ← heq]; exact abs_list_sum_le _
  obtain ⟨res, hres, hrv, hrs⟩ := sub_exact (hroom.scales total List.mem_cons_self) hss
    hroom.scale_le (lt_of_le_of_lt (mul_le_mul_of_nonneg_right (by simpa using hsumle)
      (by positivity)) hroom.fits)
  have hr : res.val = total.val - sliceSum slices := by
    rw [hrv, hsv, sliceSum, List.map_map]; rfl
  unfold settle at h
  obtain ⟨sum', hsum', h⟩ := bind_eq_ok h
  rw [hsum] at hsum'; cases hsum'
  obtain ⟨res', hres', h⟩ := bind_eq_ok h
  rw [hres] at hres'; cases hres'
  -- every branch ends by dropping the zeros of the slices it settled
  dsimp only at h
  simp only [pure_bind] at h
  split at h
  · -- no residual
    exact ⟨slices, .unmoved (by rw [← hr]; exact isZero_iff_val.1 ‹_›), (Except.ok.inj h).symm⟩
  · split at h
    · -- no slices: then there was no residual either
      have hnil : slices = [] := List.getLast?_eq_none_iff.1 ‹_›
      exact ⟨slices, .unmoved (by simp [hnil, hempty hnil]), (Except.ok.inj h).symm⟩
    · rename_i last hlast
      have hlastget : slices[slices.length - 1]? = some last := by
        rw [← List.getLast?_eq_getElem?]; exact hlast
      have hlen : 0 < slices.length := by
        have := (List.getElem?_eq_some_iff.1 hlastget).1; omega
      obtain ⟨a, ha, hav, has⟩ := add_residual_exact hroom hlastget hr hrs
      obtain ⟨a', ha', h⟩ := bind_eq_ok h
      rw [ha] at ha'; cases ha'
      split at h
      · -- the last slice takes the residual
        refine ⟨_, .moved _ last a hlastget (by rw [hav, hr]) has (.inl ⟨by omega, ?_⟩),
          (Except.ok.inj h).symm⟩
        simpa [le_iff_val] using ‹zero ≤ a›
      · -- a largest slice takes it
        obtain ⟨j, hj, hjlt, hmax⟩ := @lastMaxIndex_spec (slices.map (·.amount))
          (by simpa using List.ne_nil_of_length_pos hlen)
        split at h
        · rename_i hnone; rw [hj] at hnone; cases hnone
        · rename_i i hi
          rw [hj] at hi; cases hi
          have hjs : j < slices.length := by simpa using hjlt
          split at h
          · rename_i hnone; simp [hjs] at hnone
          · rename_i s hs
            obtain ⟨b, hb, hbv, hbs⟩ := add_residual_exact hroom hs hr hrs
            obtain ⟨b', hb', h⟩ := bind_eq_ok h
            rw [hb] at hb'; cases hb'
            refine ⟨_, .moved j s b hs (by rw [hbv, hr]) hbs (.inr fun x hx => ?_),
              (Except.ok.inj h).symm⟩
            have hsj : slices[j] = s := (List.getElem?_eq_some_iff.1 hs).2
            simpa [hsj] using hmax x.amount (List.mem_map_of_mem hx)

end Exact

/-! ## Section 3: What settling keeps -/

section Settled

variable {slices adjusted : List Slice} {r : ℚ} {S : ℕ}

/-- Settling adds the residual to the slices' value. -/
theorem Settled.sliceSum_eq (hs : Settled slices r S adjusted) :
    sliceSum adjusted = sliceSum slices + r := by
  cases hs with
  | unmoved h => simp [h]
  | moved i s a hget hval _ _ =>
    obtain ⟨hi, rfl⟩ := List.getElem?_eq_some_iff.1 hget
    rw [sliceSum, List.map_set, List.sum_set', dif_pos (by simpa using hi), hval]
    simp only [List.getElem_map, sliceSum]
    ring

theorem Settled.scale_le (hs : Settled slices r S adjusted) (hsc : ∀ x ∈ slices, x.amount.scale ≤ S) :
    ∀ x ∈ adjusted, x.amount.scale ≤ S := by
  cases hs with
  | unmoved => exact hsc
  | moved i s a _ _ has _ =>
    intro x hx
    rcases List.mem_or_eq_of_mem_set hx with hx | rfl
    · exact hsc x hx
    · exact has

/-- The settled slice is nonnegative when the others are and the residual fits into the largest
    of them. -/
theorem Settled.nonneg (hs : Settled slices r S adjusted) (hnn : ∀ x ∈ slices, 0 ≤ x.amount.val)
    (hcover : 0 ≤ r ∨ ∃ y ∈ slices, -r ≤ y.amount.val) : ∀ x ∈ adjusted, 0 ≤ x.amount.val := by
  cases hs with
  | unmoved => exact hnn
  | moved i s a hget hval _ hwhere =>
    intro x hx
    rcases List.mem_or_eq_of_mem_set hx with hx | rfl
    · exact hnn x hx
    · have hs0 := hnn s (List.mem_of_getElem? hget)
      show 0 ≤ a.val
      rcases hwhere with ⟨-, ha⟩ | hmax
      · exact ha
      · rcases hcover with hr | ⟨y, hy, hyr⟩
        · rw [hval]; linarith
        · have := hmax y hy
          rw [hval]; linarith

end Settled

section Theorems

variable {S : ℕ} {slices out : List Slice} {total : Decimal}

/-- Under exact arithmetic the settled slices add up to the total. -/
theorem settle_sliceSum (h : settle slices total = .ok out)
    (hroom : Room S (total :: slices.map (·.amount))) (hempty : slices = [] → total.val = 0) :
    sliceSum out = total.val := by
  obtain ⟨adjusted, hs, rfl⟩ := settle_settled h hroom hempty
  rw [sliceSum_filter_nonzero, hs.sliceSum_eq]
  ring

/-- Settled slices are never zero, and are no finer than the total and the slices were. -/
theorem settle_scale_le (h : settle slices total = .ok out)
    (hroom : Room S (total :: slices.map (·.amount))) (hempty : slices = [] → total.val = 0) :
    ∀ x ∈ out, x.amount.isZero = false ∧ x.amount.scale ≤ S := by
  obtain ⟨adjusted, hs, rfl⟩ := settle_settled h hroom hempty
  have hsc : ∀ x ∈ slices, x.amount.scale ≤ S := fun x hx =>
    hroom.scales _ (List.mem_cons_of_mem _ (List.mem_map_of_mem hx))
  intro x hx
  obtain ⟨hxa, hnz⟩ := List.mem_filter.1 hx
  exact ⟨by simpa using hnz, hs.scale_le hsc x hxa⟩

/-- Nonnegative slices settle into positive ones exactly when the slices exceed the total by
    no more than one of them weighs. -/
theorem settle_pos_iff (h : settle slices total = .ok out)
    (hroom : Room S (total :: slices.map (·.amount))) (hempty : slices = [] → total.val = 0)
    (hnn : ∀ x ∈ slices, 0 ≤ x.amount.val) :
    (∀ x ∈ out, 0 < x.amount.val) ↔
      sliceSum slices ≤ total.val ∨ ∃ y ∈ slices, sliceSum slices - total.val ≤ y.amount.val := by
  obtain ⟨adjusted, hs, rfl⟩ := settle_settled h hroom hempty
  -- a kept slice is not zero, so a nonnegative one is positive
  have hpos : ∀ x ∈ adjusted.filter (fun x => !x.amount.isZero), 0 ≤ x.amount.val →
      0 < x.amount.val := by
    intro x hx hx0
    have hnz : x.amount.val ≠ 0 := fun h0 => by
      simp [isZero_iff_val.2 h0] at hx
    exact lt_of_le_of_ne hx0 (Ne.symm hnz)
  constructor
  · intro hall
    cases hs with
    | unmoved hr => exact .inl (by linarith)
    | moved i s a hget hval _ _ =>
      -- the slice that took the residual is dropped or kept positive
      have ha : 0 ≤ a.val := by
        by_cases hz : a.isZero
        · exact (isZero_iff_val.1 hz).ge
        · have hmem : { s with amount := a } ∈ slices.set i { s with amount := a } :=
            List.mem_set (List.getElem?_eq_some_iff.1 hget).1 _
          exact (hall _ (List.mem_filter.2 ⟨hmem, by simpa using hz⟩)).le
      exact .inr ⟨s, List.mem_of_getElem? hget, by linarith⟩
  · intro hcover x hx
    refine hpos x hx (hs.nonneg hnn ?_ x (List.mem_filter.1 hx).1)
    rcases hcover with hle | ⟨y, hy, hyle⟩
    · exact .inl (by linarith)
    · exact .inr ⟨y, hy, by linarith⟩

end Theorems

end Encumbrance
