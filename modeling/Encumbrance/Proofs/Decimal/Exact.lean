import Mathlib
import Encumbrance.Decimal.Arith

/-!
# Exact decimal arithmetic

A decimal stands for the rational number `±mantissa / 10^scale`. This module reads the order
of decimals off that number, and says when sums and differences are exact: the rounding step
`Decimal.fit` only drops digits from a mantissa that no longer fits in 96 bits, so a sum
whose magnitudes, brought to a common scale, stay below `2^96` is computed exactly.

`Decimal.Room S xs` packages that condition for a whole list of amounts: at a scale `S` no
coarser than any of theirs, their magnitudes add up to less than `2^96`. Then every sum or
difference of some of them, taken in any order, is exact. This is the sense in which the
ledger's theorems assume exact decimal arithmetic.
-/

namespace Encumbrance.Decimal

/-- The number a decimal stands for. -/
def val (d : Decimal) : ℚ := d.num / 10 ^ d.scale

/-! ## Section 1: Value and order -/

theorem val_eq (d : Decimal) :
    d.val = (if d.neg then -(d.mantissa : ℚ) else d.mantissa) / 10 ^ d.scale := by
  unfold val num; split <;> push_cast <;> rfl

@[simp] theorem val_negate (d : Decimal) : (-d).val = -d.val := by
  show (negate d).val = _
  simp only [val_eq, negate]; cases d.neg <;> simp [neg_div]

@[simp] theorem val_zero : zero.val = 0 := by simp [val_eq, zero]

theorem isZero_iff {d : Decimal} : d.isZero ↔ d.mantissa = 0 := by simp [isZero]

theorem isZero_iff_val {d : Decimal} : d.isZero ↔ d.val = 0 := by
  rw [isZero_iff, val_eq]; split <;> simp [div_eq_zero_iff]

/-- Comparing decimals compares the numbers they stand for. -/
theorem cmp_eq_compare_val (a b : Decimal) : cmp a b = compare a.val b.val := by
  have ha : (0 : ℚ) < 10 ^ a.scale := by positivity
  have hb : (0 : ℚ) < 10 ^ b.scale := by positivity
  -- the integer comparison of `cmp` is the rational one with both denominators cleared
  have hcast : ∀ x y : ℤ, compare x y = compare (x : ℚ) (y : ℚ) := by
    intro x y
    rcases lt_trichotomy x y with h | rfl | h
    · rw [compare_lt_iff_lt.2 h, compare_lt_iff_lt.2 (by exact_mod_cast h)]
    · simp
    · rw [compare_gt_iff_gt.2 h, compare_gt_iff_gt.2 (by exact_mod_cast h)]
  show compare (a.num * Int.pow 10 b.scale) (b.num * Int.pow 10 a.scale) = _
  simp only [show ∀ n, Int.pow 10 n = (10 : ℤ) ^ n from fun _ => rfl]
  rw [hcast]; push_cast
  rcases lt_trichotomy a.val b.val with h | h | h
  · rw [compare_lt_iff_lt.2 h, compare_lt_iff_lt.2]
    rwa [val, val, div_lt_div_iff₀ ha hb] at h
  · rw [h, compare_eq_iff_eq.2 rfl, compare_eq_iff_eq.2]
    rwa [val, val, div_eq_div_iff ha.ne' hb.ne'] at h
  · rw [compare_gt_iff_gt.2 h, compare_gt_iff_gt.2]
    rwa [val, val, div_lt_div_iff₀ hb ha] at h

theorem lt_iff_val {a b : Decimal} : a < b ↔ a.val < b.val := by
  show cmp a b = .lt ↔ _
  rw [cmp_eq_compare_val, compare_lt_iff_lt]

theorem le_iff_val {a b : Decimal} : a ≤ b ↔ a.val ≤ b.val := by
  show cmp a b ≠ .gt ↔ _
  rw [cmp_eq_compare_val, Ne, compare_gt_iff_gt, not_lt]

theorem sameValue_iff {a b : Decimal} : a.sameValue b ↔ a.val = b.val := by
  simp [sameValue, cmp_eq_compare_val]

theorem isNegative_iff {d : Decimal} : d.isNegative ↔ d.val < 0 := by
  rw [val_eq]
  cases h : d.neg
  · simp [isNegative, h]; positivity
  · have : (0 : ℚ) < 10 ^ d.scale := by positivity
    simp [isNegative, h, neg_div, this, Nat.pos_iff_ne_zero]

/-! ## Section 2: Mantissas that fit -/

theorem make?_eq {neg : Bool} {m s : ℕ} (hm : m < mantissaLimit) (hs : s ≤ maxScale) :
    make? neg m s = some ⟨neg, m, s, hm, hs⟩ := by
  simp [make?, hm, hs]

theorem val_mk {neg : Bool} {m s : ℕ} (hm : m < mantissaLimit) (hs : s ≤ maxScale) :
    (⟨neg, m, s, hm, hs⟩ : Decimal).val = (if neg then -(m : ℚ) else m) / 10 ^ s := val_eq _

theorem digitsOver_of_lt {m : ℕ} (hm : m < mantissaLimit) : digitsOver m = 0 := by
  rw [digitsOver]; simp [hm]

theorem shiftRound_zero (m : ℕ) : shiftRound m 0 = m := by
  simp [shiftRound, shiftRoundWith, Nat.mod_one]

/-- A mantissa that already fits is taken as it is. -/
theorem fit_of_lt {neg : Bool} {m s : ℕ} (hm : m < mantissaLimit) (hs : s ≤ maxScale) :
    fit neg m s = make? neg m s := by
  have hk : max (digitsOver m) (s - maxScale) = 0 := by
    rw [digitsOver_of_lt hm]; omega
  simp only [fit, hk, shiftRound_zero, hm, Nat.sub_zero, Nat.not_lt_zero, if_false, if_true]

/-! ## Section 3: Exact sums and differences -/

/-- A mantissa brought to a finer scale keeps its value. -/
theorem mantissa_div_eq {m a S : ℕ} (h : a ≤ S) :
    (m : ℚ) / 10 ^ a = ((m * 10 ^ (S - a) : ℕ) : ℚ) / 10 ^ S := by
  have : (10 : ℚ) ^ S = 10 ^ a * 10 ^ (S - a) := by rw [← pow_add]; congr 1; omega
  rw [this]; push_cast
  rw [mul_div_mul_right _ _ (by positivity)]

/-- The value of a decimal read at a finer scale `M`. -/
theorem val_at {d : Decimal} {M : ℕ} (h : d.scale ≤ M) :
    d.val = (if d.neg then -((d.mantissa * 10 ^ (M - d.scale) : ℕ) : ℚ)
      else ((d.mantissa * 10 ^ (M - d.scale) : ℕ) : ℚ)) / 10 ^ M := by
  rw [val_eq]; split <;> simp only [neg_div, mantissa_div_eq h]

/-- Adding or subtracting two decimals of scale at most `S` is exact when the result fits in
    `2^96` at scale `S`, however large the operands are. -/
theorem combine_exact_of_fits (subtract : Bool) {a b : Decimal} {S : ℕ} (ha : a.scale ≤ S)
    (hb : b.scale ≤ S) (hS : S ≤ maxScale)
    (hfit : |a.val + (if subtract then -b.val else b.val)| * 10 ^ S < mantissaLimit) :
    ∃ c, combine subtract a b = some c ∧
      c.val = a.val + (if subtract then -b.val else b.val) ∧ c.scale ≤ S := by
  unfold combine
  -- a zero operand hands back the other one, untouched or negated
  by_cases hza : a.isZero
  · have hav : a.val = 0 := isZero_iff_val.1 hza
    by_cases hzb : b.isZero
    · have hbv : b.val = 0 := isZero_iff_val.1 hzb
      exact ⟨b, by simp [hza, hzb], by simp [hav, hbv], hb⟩
    · cases subtract
      · exact ⟨b, by simp [hza], by simp [hav], hb⟩
      · exact ⟨-b, by simp [hza, hzb], by simp [hav], hb⟩
  by_cases hzb : b.isZero
  · exact ⟨a, by simp [hza, hzb], by simp [isZero_iff_val.1 hzb], ha⟩
  simp only [hza, hzb, Nat.pow_eq]
  set M := max a.scale b.scale with hM
  have hMS : M ≤ S := max_le ha hb
  have hMmax : M ≤ maxScale := le_trans hMS hS
  set x := a.mantissa * 10 ^ (M - a.scale) with hx
  set y := b.mantissa * 10 ^ (M - b.scale) with hy
  have hav := val_at (d := a) (le_max_left a.scale b.scale)
  have hbv := val_at (d := b) (le_max_right a.scale b.scale)
  rw [← hM, ← hx] at hav; rw [← hM, ← hy] at hbv
  -- at the common scale the result is the signed sum of the two mantissas, and it fits
  set r := a.val + (if subtract then -b.val else b.val) with hr
  have hpos : (0 : ℚ) < 10 ^ M := by positivity
  have hrM : |r * 10 ^ M| < mantissaLimit := by
    rw [abs_mul, abs_of_pos hpos]
    exact lt_of_le_of_lt (mul_le_mul_of_nonneg_left (pow_le_pow_right₀ (by norm_num) hMS)
      (abs_nonneg _)) hfit
  have hscaled : r * 10 ^ M =
      (if a.neg then -(x : ℚ) else x) + (if (subtract != b.neg) = true then -(y : ℚ) else y) := by
    rw [hr, hav, hbv, add_mul, div_mul_cancel₀ _ hpos.ne']
    cases subtract <;> cases b.neg <;> simp [neg_div, div_mul_cancel₀ _ hpos.ne']
  by_cases hdiff : (subtract != (a.neg != b.neg)) = true
  · simp only [hdiff, Bool.not_true]
    -- the mantissas are taken from each other
    have hgap : |r * 10 ^ M| = |(x : ℚ) - y| := by
      rw [hscaled]
      revert hdiff
      cases subtract <;> cases a.neg <;> cases b.neg <;> simp <;>
        first | rw [← sub_eq_add_neg] | rw [neg_add_eq_sub, abs_sub_comm]
    by_cases heq : x = y
    · have h0 : 0 < mantissaLimit := Nat.pos_of_ne_zero (by simp [mantissaLimit])
      refine ⟨⟨false, 0, M, h0, hMmax⟩, by simp [heq, make?_eq h0 hMmax], ?_, hMS⟩
      rw [val_mk, hr, hav, hbv, heq]
      revert hdiff; cases subtract <;> cases a.neg <;> cases b.neg <;> simp <;> ring
    · by_cases hlt : y < x
      · have hm : x - y < mantissaLimit := by
          have : ((x - y : ℕ) : ℚ) < mantissaLimit := by
            rw [Nat.cast_sub hlt.le, ← abs_of_pos (sub_pos.2 (by exact_mod_cast hlt)), ← hgap]
            exact hrM
          exact_mod_cast this
        refine ⟨⟨a.neg, x - y, M, hm, hMmax⟩, ?_, ?_, hMS⟩
        · simp [heq, hlt, fit_of_lt hm hMmax, make?_eq hm hMmax]
        · rw [val_mk, hr, hav, hbv, Nat.cast_sub hlt.le]
          revert hdiff; cases subtract <;> cases a.neg <;> cases b.neg <;> simp <;> ring
      · have hyx : x < y := lt_of_le_of_ne (not_lt.1 hlt) heq
        have hm : y - x < mantissaLimit := by
          have : ((y - x : ℕ) : ℚ) < mantissaLimit := by
            rw [Nat.cast_sub hyx.le, ← abs_of_pos (sub_pos.2 (by exact_mod_cast hyx)), abs_sub_comm,
              ← hgap]
            exact hrM
          exact_mod_cast this
        refine ⟨⟨!a.neg, y - x, M, hm, hMmax⟩, ?_, ?_, hMS⟩
        · simp [heq, hlt, fit_of_lt hm hMmax, make?_eq hm hMmax]
        · rw [val_mk, hr, hav, hbv, Nat.cast_sub hyx.le]
          revert hdiff; cases subtract <;> cases a.neg <;> cases b.neg <;> simp <;> ring
  · -- the mantissas are added
    have hxy : x + y < mantissaLimit := by
      have hsum : |r * 10 ^ M| = ((x + y : ℕ) : ℚ) := by
        rw [hscaled]
        revert hdiff; cases subtract <;> cases a.neg <;> cases b.neg <;> simp
        all_goals first | positivity | rw [← neg_add, abs_neg, abs_of_nonneg (by positivity)]
      exact_mod_cast hsum ▸ hrM
    refine ⟨⟨a.neg, x + y, M, hxy, hMmax⟩, ?_, ?_, hMS⟩
    · simp at hdiff; simp [hdiff, fit_of_lt hxy hMmax, make?_eq hxy hMmax]
    · rw [val_mk, hr, hav, hbv]
      revert hdiff; cases subtract <;> cases a.neg <;> cases b.neg <;> simp <;> ring

/-- Adding or subtracting two decimals is exact when, at a common scale `S` at least both of
    theirs, their magnitudes add up to less than `2^96`. -/
theorem combine_exact (subtract : Bool) {a b : Decimal} {S : ℕ} (ha : a.scale ≤ S)
    (hb : b.scale ≤ S) (hS : S ≤ maxScale) (hroom : (|a.val| + |b.val|) * 10 ^ S < mantissaLimit) :
    ∃ c, combine subtract a b = some c ∧
      c.val = a.val + (if subtract then -b.val else b.val) ∧ c.scale ≤ S := by
  refine combine_exact_of_fits subtract ha hb hS (lt_of_le_of_lt ?_ hroom)
  refine mul_le_mul_of_nonneg_right ((abs_add_le _ _).trans ?_) (by positivity)
  cases subtract <;> simp

theorem add_exact {a b : Decimal} {S : ℕ} (ha : a.scale ≤ S) (hb : b.scale ≤ S)
    (hS : S ≤ maxScale) (hroom : (|a.val| + |b.val|) * 10 ^ S < mantissaLimit) :
    ∃ c, add a b = .ok c ∧ c.val = a.val + b.val ∧ c.scale ≤ S := by
  obtain ⟨c, hc, hv, hs⟩ := combine_exact false ha hb hS hroom
  exact ⟨c, by simp [add, hc], by simpa using hv, hs⟩

theorem sub_exact {a b : Decimal} {S : ℕ} (ha : a.scale ≤ S) (hb : b.scale ≤ S)
    (hS : S ≤ maxScale) (hroom : (|a.val| + |b.val|) * 10 ^ S < mantissaLimit) :
    ∃ c, sub a b = .ok c ∧ c.val = a.val - b.val ∧ c.scale ≤ S := by
  obtain ⟨c, hc, hv, hs⟩ := combine_exact true ha hb hS hroom
  exact ⟨c, by simp [sub, hc], by simpa [sub_eq_add_neg] using hv, hs⟩

/-- A difference is exact when it fits, whatever the operands weigh. -/
theorem sub_exact_of_fits {a b : Decimal} {S : ℕ} (ha : a.scale ≤ S) (hb : b.scale ≤ S)
    (hS : S ≤ maxScale) (hfit : |a.val - b.val| * 10 ^ S < mantissaLimit) :
    ∃ c, sub a b = .ok c ∧ c.val = a.val - b.val ∧ c.scale ≤ S := by
  obtain ⟨c, hc, hv, hs⟩ :=
    combine_exact_of_fits true ha hb hS (by simpa [sub_eq_add_neg] using hfit)
  exact ⟨c, by simp [sub, hc], by simpa [sub_eq_add_neg] using hv, hs⟩

/-! ## Section 4: Room for exact sums -/

/-- Amounts that add up exactly: at a scale `S` no coarser than any of theirs and at most 28,
    their magnitudes add up to less than `2^96`. -/
structure Room (S : ℕ) (xs : List Decimal) : Prop where
  scale_le : S ≤ maxScale
  scales : ∀ x ∈ xs, x.scale ≤ S
  fits : (xs.map fun x => |x.val|).sum * 10 ^ S < mantissaLimit

/-- No amounts leave all the room there is. -/
theorem Room.nil {S : ℕ} (hS : S ≤ maxScale) : Room S [] where
  scale_le := hS
  scales _ h := absurd h List.not_mem_nil
  fits := by
    simp only [List.map_nil, List.sum_nil, zero_mul]
    exact Nat.cast_pos.2 (by simp [mantissaLimit])

/-- Whatever weighs no more than amounts with room fits a mantissa at their scale. -/
theorem Room.fits_of_le {S : ℕ} {xs : List Decimal} (h : Room S xs) {w : ℚ}
    (hw : w ≤ (xs.map fun x => |x.val|).sum) : w * 10 ^ S < mantissaLimit :=
  lt_of_le_of_lt (mul_le_mul_of_nonneg_right hw (by positivity)) h.fits

/-- Fewer amounts leave at least as much room. -/
theorem Room.sublist {S : ℕ} {xs ys : List Decimal} (h : Room S xs) (hs : ys.Sublist xs) :
    Room S ys where
  scale_le := h.scale_le
  scales x hx := h.scales x (hs.subset hx)
  fits := h.fits_of_le <| (hs.map _).sum_le_sum fun _ ha => by
      obtain ⟨_, _, rfl⟩ := List.mem_map.1 ha; exact abs_nonneg _

/-- A zero takes no room. -/
theorem Room.append_zero {S : ℕ} {xs : List Decimal} (h : Room S xs) : Room S (xs ++ [zero]) where
  scale_le := h.scale_le
  scales x hx := by
    rcases List.mem_append.1 hx with hx | hx
    · exact h.scales x hx
    · rw [List.mem_singleton.1 hx]
      exact Nat.zero_le _
  fits := by simpa using h.fits

/-- The same amounts in another order leave the same room. -/
theorem Room.perm {S : ℕ} {xs ys : List Decimal} (h : Room S xs) (hp : xs.Perm ys) : Room S ys where
  scale_le := h.scale_le
  scales x hx := h.scales x (hp.mem_iff.2 hx)
  fits := by
    rw [← (hp.map _).sum_eq]
    exact h.fits

/-- Room depends only on the magnitudes and scales of the amounts. -/
theorem Room.congr {α : Type} {S : ℕ} {l : List α} {f g : α → Decimal} (h : Room S (l.map f))
    (habs : ∀ a ∈ l, |(g a).val| = |(f a).val|) (hsc : ∀ a ∈ l, (g a).scale = (f a).scale) :
    Room S (l.map g) where
  scale_le := h.scale_le
  scales x hx := by
    obtain ⟨a, ha, rfl⟩ := List.mem_map.1 hx
    rw [hsc a ha]; exact h.scales _ (List.mem_map_of_mem ha)
  fits := by
    have : ((l.map g).map fun x => |x.val|) = ((l.map f).map fun x => |x.val|) := by
      simp only [List.map_map]; exact List.map_congr_left fun a ha => habs a ha
    rw [this]; exact h.fits

/-- Amounts may be traded for others of no finer scale that weigh no more. -/
theorem Room.trade {S : ℕ} {xs ys zs : List Decimal} (h : Room S (xs ++ ys))
    (hsc : ∀ z ∈ zs, z.scale ≤ S)
    (hle : (zs.map fun z => |z.val|).sum ≤ (ys.map fun y => |y.val|).sum) :
    Room S (xs ++ zs) where
  scale_le := h.scale_le
  scales x hx := by
    rcases List.mem_append.1 hx with hx | hx
    · exact h.scales x (List.mem_append_left _ hx)
    · exact hsc x hx
  fits := by
    refine h.fits_of_le ?_
    simp only [List.map_append, List.sum_append]
    linarith

/-- A left fold of additions is exact while the running total and the amounts still to come
    fit together. -/
theorem foldlM_add_exact {S : ℕ} (hS : S ≤ maxScale) :
    ∀ {acc : Decimal} {xs : List Decimal}, acc.scale ≤ S → (∀ x ∈ xs, x.scale ≤ S) →
      (|acc.val| + (xs.map fun x => |x.val|).sum) * 10 ^ S < mantissaLimit →
      ∃ c, xs.foldlM add acc = .ok c ∧ c.val = acc.val + (xs.map val).sum ∧ c.scale ≤ S
  | acc, [], hacc, _, _ => ⟨acc, rfl, by simp, hacc⟩
  | acc, x :: xs, hacc, hxs, hroom => by
    have hsum : 0 ≤ (xs.map fun x => |x.val|).sum :=
      List.sum_nonneg fun _ hy => by obtain ⟨_, _, rfl⟩ := List.mem_map.1 hy; exact abs_nonneg _
    have hfirst : (|acc.val| + |x.val|) * 10 ^ S < mantissaLimit := by
      refine lt_of_le_of_lt (mul_le_mul_of_nonneg_right ?_ (by positivity)) hroom
      simp only [List.map_cons, List.sum_cons]; linarith
    obtain ⟨c, hc, hcv, hcs⟩ := add_exact hacc (hxs x (by simp)) hS hfirst
    have hrest : (|c.val| + (xs.map fun x => |x.val|).sum) * 10 ^ S < mantissaLimit := by
      refine lt_of_le_of_lt (mul_le_mul_of_nonneg_right ?_ (by positivity)) hroom
      simp only [List.map_cons, List.sum_cons, hcv]
      linarith [abs_add_le acc.val x.val]
    obtain ⟨d, hd, hdv, hds⟩ :=
      foldlM_add_exact hS hcs (fun y hy => hxs y (List.mem_cons_of_mem _ hy)) hrest
    refine ⟨d, by rw [List.foldlM_cons, hc]; exact hd, ?_, hds⟩
    rw [hdv, hcv]; simp [add_assoc]

/-- The sum of amounts with room is exact. -/
theorem sum_exact {S : ℕ} {xs : List Decimal} (h : Room S xs) :
    ∃ c, Decimal.sum xs = .ok c ∧ c.val = (xs.map val).sum ∧ c.scale ≤ S := by
  obtain ⟨c, hc, hv, hs⟩ :=
    foldlM_add_exact h.scale_le (show zero.scale ≤ S from Nat.zero_le _) h.scales
      (by simpa using h.fits)
  exact ⟨c, hc, by simpa using hv, hs⟩

end Encumbrance.Decimal
