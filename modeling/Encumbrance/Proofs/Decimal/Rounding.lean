import Mathlib
import Encumbrance.Proofs.Decimal.Exact
import Encumbrance.Proofs.Ledger.Append

/-!
# Rounding to a number of places

`Decimal.roundTo d p` keeps at most `p` digits behind the point, rounding half to even. This
module states that rule on the rational numbers, as `roundHalfEven p x`: the multiple of
`10^-p` nearest to `x`, and of two at the same distance the one whose last digit is even. The
main statement, `val_roundTo`, says that the decimal routine computes exactly this number, for
every decimal and every number of places. What amounts rounded one by one obey follows from it:
each moves by at most half a unit of the last place (`abs_roundHalfEven_sub_le`), and a
nonnegative amount stays nonnegative.

The last section records the signs that products and quotients keep: the rounding step
`Decimal.fit` never touches the sign it is given, so the product or quotient of nonnegative
amounts is nonnegative.
-/

namespace Encumbrance.Decimal

/-! ## Section 1: Half to even on the rationals -/

/-- The integer nearest to `y`; halfway between two, the even one. -/
def roundEven (y : ℚ) : ℤ :=
  if 2 * Int.fract y < 1 then ⌊y⌋
  else if 1 < 2 * Int.fract y then ⌊y⌋ + 1
  else if ⌊y⌋ % 2 = 0 then ⌊y⌋ else ⌊y⌋ + 1

/-- `x` rounded to `p` places behind the point, half to even. -/
def roundHalfEven (p : ℕ) (x : ℚ) : ℚ := roundEven (x * 10 ^ p) / 10 ^ p

@[simp] theorem roundEven_intCast (n : ℤ) : roundEven n = n := by
  simp [roundEven]

theorem abs_roundEven_sub_le (y : ℚ) : |(roundEven y : ℚ) - y| ≤ 1 / 2 := by
  have hf : Int.fract y = y - ⌊y⌋ := rfl
  have h0 := Int.fract_nonneg y
  have h1 := Int.fract_lt_one y
  unfold roundEven
  split_ifs <;> push_cast <;> rw [abs_le] <;> constructor <;> linarith

theorem roundEven_nonneg {y : ℚ} (hy : 0 ≤ y) : 0 ≤ roundEven y := by
  have : 0 ≤ ⌊y⌋ := Int.floor_nonneg.2 hy
  unfold roundEven
  split_ifs <;> omega

/-- Half to even is symmetric about zero: a tie goes to the even neighbour on either side. -/
theorem roundEven_neg (y : ℚ) : roundEven (-y) = -roundEven y := by
  by_cases hz : Int.fract y = 0
  · -- on an integer both sides are that integer
    have hy : y = (⌊y⌋ : ℚ) := by rw [Int.fract] at hz; linarith
    rw [hy, ← Int.cast_neg, roundEven_intCast, roundEven_intCast]
  · -- off the integers, the fraction of `-y` is what `y`'s lacks to one
    have hfract : Int.fract (-y) = 1 - Int.fract y := Int.fract_neg hz
    have hfloor : ⌊-y⌋ = -⌊y⌋ - 1 := by
      have : ((⌊-y⌋ : ℤ) : ℚ) = -⌊y⌋ - 1 := by
        rw [Int.fract, Int.fract] at hfract; linarith
      exact_mod_cast this
    unfold roundEven
    rw [hfract, hfloor]
    split_ifs <;> first | omega | linarith

/-- The fraction `m / 10^k` of naturals rounds the way `shiftRound` computes on digits. -/
theorem roundEven_natCast_div (m k : ℕ) : roundEven ((m : ℚ) / 10 ^ k) = shiftRound m k := by
  have hp : (10 : ℚ) ^ k = ((Nat.pow 10 k : ℕ) : ℚ) := by rw [Nat.pow_eq]; push_cast; rfl
  have hpos : 0 < Nat.pow 10 k := by rw [Nat.pow_eq]; positivity
  have hposq : (0 : ℚ) < (Nat.pow 10 k : ℕ) := by exact_mod_cast hpos
  rw [hp]
  have hfloor : ⌊(m : ℚ) / (Nat.pow 10 k : ℕ)⌋ = ((m / Nat.pow 10 k : ℕ) : ℤ) :=
    Rat.floor_natCast_div_natCast m _
  have hfract : Int.fract ((m : ℚ) / (Nat.pow 10 k : ℕ)) =
      ((m % Nat.pow 10 k : ℕ) : ℚ) / (Nat.pow 10 k : ℕ) :=
    Int.fract_div_natCast_eq_div_natCast_mod
  -- twice the fraction against one is twice the remainder against the divisor
  have hcmp : ∀ a b : ℕ, 2 * (((a : ℚ) / (Nat.pow 10 k : ℕ))) < b ↔ 2 * a < b * Nat.pow 10 k := by
    intro a b
    rw [mul_div_assoc', div_lt_iff₀ hposq]; exact_mod_cast Iff.rfl
  have hcmp' : ∀ a : ℕ, 1 < 2 * (((a : ℚ) / (Nat.pow 10 k : ℕ))) ↔ Nat.pow 10 k < 2 * a := by
    intro a
    rw [mul_div_assoc', lt_div_iff₀ hposq]; exact_mod_cast by simp
  have hlt := hcmp (m % Nat.pow 10 k) 1
  have hgt := hcmp' (m % Nat.pow 10 k)
  simp only [Nat.cast_one, one_mul] at hlt
  unfold roundEven shiftRound shiftRoundWith
  simp only [hfract, hfloor, hlt, hgt, Bool.false_or, Bool.or_eq_true, decide_eq_true_eq,
    Bool.and_eq_true, beq_iff_eq]
  split_ifs <;> omega

/-! ## Section 2: What rounding to `p` places does to a number -/

theorem roundHalfEven_of_mul_eq {p : ℕ} {x : ℚ} {n : ℤ} (h : x * 10 ^ p = n) :
    roundHalfEven p x = x := by
  rw [roundHalfEven, h, roundEven_intCast, ← h, mul_div_cancel_right₀ _ (by positivity)]

@[simp] theorem roundHalfEven_zero (p : ℕ) : roundHalfEven p 0 = 0 :=
  roundHalfEven_of_mul_eq (n := 0) (by simp)

theorem roundHalfEven_neg (p : ℕ) (x : ℚ) : roundHalfEven p (-x) = -roundHalfEven p x := by
  simp only [roundHalfEven, neg_mul, roundEven_neg, Int.cast_neg, neg_div]

/-- Rounding to `p` places moves a number by at most half a unit of the last place. -/
theorem abs_roundHalfEven_sub_le (p : ℕ) (x : ℚ) :
    |roundHalfEven p x - x| ≤ 1 / (2 * 10 ^ p) := by
  have hp : (0 : ℚ) < 10 ^ p := by positivity
  have hshift : roundHalfEven p x - x = ((roundEven (x * 10 ^ p) : ℚ) - x * 10 ^ p) / 10 ^ p := by
    rw [roundHalfEven, sub_div, mul_div_cancel_right₀ _ hp.ne']
  calc |roundHalfEven p x - x|
      = |(roundEven (x * 10 ^ p) : ℚ) - x * 10 ^ p| / 10 ^ p := by
        rw [hshift, abs_div, abs_of_pos hp]
    _ ≤ (1 / 2) / 10 ^ p := div_le_div_of_nonneg_right (abs_roundEven_sub_le _) hp.le
    _ = 1 / (2 * 10 ^ p) := by rw [div_div]

theorem roundHalfEven_nonneg {p : ℕ} {x : ℚ} (hx : 0 ≤ x) : 0 ≤ roundHalfEven p x := by
  have : (0 : ℚ) ≤ roundEven (x * 10 ^ p) := by exact_mod_cast roundEven_nonneg (by positivity)
  exact div_nonneg this (by positivity)

/-! ## Section 3: The decimal routine -/

/-- Dropping at least one digit keeps a mantissa in range, even when it rounds up. -/
theorem shiftRound_lt {m k : ℕ} (hm : m < mantissaLimit) (hk : 0 < k) :
    shiftRound m k < mantissaLimit := by
  have hup : shiftRound m k ≤ m / Nat.pow 10 k + 1 := by
    simp only [shiftRound, shiftRoundWith]; split <;> omega
  have hten : 10 ≤ Nat.pow 10 k := by
    rw [Nat.pow_eq]; exact le_self_pow₀ (by decide) hk.ne'
  have hdiv : m / Nat.pow 10 k ≤ m / 10 := Nat.div_le_div_left hten (by decide)
  simp only [mantissaLimit, Nat.pow_eq] at hm ⊢
  omega

theorem roundTo_scale_le (d : Decimal) (p : ℕ) : (d.roundTo p).scale ≤ p := by
  have hd := d.scale_le
  unfold roundTo
  split_ifs with hle hz
  · exact hle
  · unfold make?; split
    · exact le_refl p
    · rename_i hmake
      by_cases hp : p ≤ maxScale
      · exact absurd ⟨by decide, hp⟩ hmake
      · simp only [Option.getD_none]; omega
  · have hq := shiftRound_lt d.mantissa_lt (show 0 < d.scale - p by omega)
    simp only [ofParts?, make?_eq hq (show p ≤ maxScale by omega), Option.getD_some, le_refl]

/-- Rounding a decimal to `p` places gives the number `roundHalfEven p` makes of its value. -/
theorem val_roundTo (d : Decimal) (p : ℕ) : (d.roundTo p).val = roundHalfEven p d.val := by
  have hd := d.scale_le
  unfold roundTo
  split_ifs with hle hz
  · -- already on the grid of `p` places
    symm
    refine roundHalfEven_of_mul_eq (n := d.num * 10 ^ (p - d.scale)) ?_
    have hpow : (10 : ℚ) ^ p = 10 ^ d.scale * 10 ^ (p - d.scale) := by
      rw [← pow_add]; congr 1; omega
    rw [val, hpow]; push_cast; field_simp
  · have hv : d.val = 0 := isZero_iff_val.1 hz
    rw [hv, roundHalfEven_zero]
    unfold make?; split
    · simp [val_eq]
    · simpa using hv
  · have hk : 0 < d.scale - p := by omega
    have hq := shiftRound_lt d.mantissa_lt hk
    simp only [ofParts?, make?_eq hq (show p ≤ maxScale by omega), Option.getD_some, val_mk]
    -- the value times `10^p` is the mantissa over the `10^k` of the digits dropped
    have hpow : (10 : ℚ) ^ d.scale = 10 ^ (d.scale - p) * 10 ^ p := by
      rw [← pow_add]; congr 1; omega
    have hx : d.val * 10 ^ p =
        if d.neg then -((d.mantissa : ℚ) / 10 ^ (d.scale - p)) else (d.mantissa : ℚ) / 10 ^ (d.scale - p) := by
      rw [val_eq, hpow]; split <;> field_simp
    rw [roundHalfEven, hx]
    cases d.neg
    · simp [roundEven_natCast_div]
    · by_cases h0 : shiftRound d.mantissa (d.scale - p) = 0 <;>
        simp [h0, roundEven_neg, roundEven_natCast_div, neg_div]

theorem roundTo_nonneg {d : Decimal} (p : ℕ) (hd : 0 ≤ d.val) : 0 ≤ (d.roundTo p).val := by
  rw [val_roundTo]; exact roundHalfEven_nonneg hd

/-! ## Section 4: Signs that products and quotients keep -/

theorem val_nonneg_of_neg_false {d : Decimal} (h : d.neg = false) : 0 ≤ d.val := by
  rw [val_eq, h]; simp only [Bool.false_eq_true, if_false]; positivity

theorem neg_false_of_val_pos {d : Decimal} (h : 0 < d.val) : d.neg = false := by
  cases hneg : d.neg
  · rfl
  · have : d.val ≤ 0 := by rw [val_eq, hneg]; simp only [if_true, neg_div]; simp; positivity
    linarith

theorem neg_false_of_nonneg {d : Decimal} (h : 0 ≤ d.val) (hz : d.isZero = false) :
    d.neg = false := by
  have hne : d.val ≠ 0 := fun h0 => by simp [isZero_iff_val.2 h0] at hz
  exact neg_false_of_val_pos (lt_of_le_of_ne h (Ne.symm hne))

theorem make?_neg {neg : Bool} {m s : ℕ} {d : Decimal} (h : make? neg m s = some d) :
    d.neg = neg := by
  unfold make? at h; split at h <;> cases h; rfl

theorem fit_neg {neg : Bool} {m s : ℕ} {d : Decimal} (h : fit neg m s = some d) : d.neg = neg := by
  simp only [fit] at h
  split_ifs at h
  all_goals first | cases h | exact make?_neg h

/-- The product of nonnegative amounts is nonnegative. -/
theorem mul_val_nonneg {a b c : Decimal} (h : mul a b = .ok c) (ha : 0 ≤ a.val) (hb : 0 ≤ b.val) :
    0 ≤ c.val := by
  unfold mul at h
  split at h
  · cases h; simp
  · rename_i hz
    simp only [Bool.or_eq_true, not_or, Bool.not_eq_true] at hz
    have hna := neg_false_of_nonneg ha hz.1
    have hnb := neg_false_of_nonneg hb hz.2
    simp only at h
    split at h
    · cases h; simp
    · split at h
      · rename_i d hfit
        cases h
        have hdn : d.neg = false := by rw [fit_neg hfit, hna, hnb]; rfl
        unfold unsignZero; split
        · exact val_nonneg_of_neg_false rfl
        · exact val_nonneg_of_neg_false hdn
      · cases h

/-- The quotient of a nonnegative amount by a positive one is nonnegative. -/
theorem div_val_nonneg {a b c : Decimal} (h : div a b = .ok c) (ha : 0 ≤ a.val) (hb : 0 < b.val) :
    0 ≤ c.val := by
  have hnb := neg_false_of_val_pos hb
  have hbz : b.isZero = false := by
    cases hz : b.isZero
    · rfl
    · exact absurd (isZero_iff_val.1 hz) hb.ne'
  unfold div at h
  simp only [hbz, Bool.false_eq_true, if_false] at h
  cases haz : a.isZero
  · have hna := neg_false_of_nonneg ha haz
    simp only [haz, Bool.false_eq_true, if_false] at h
    obtain ⟨⟨q, s, inexact⟩, -, hend⟩ := bind_eq_ok h
    simp only at hend
    split at hend
    · rename_i d hd
      have hdn : d.neg = false := by
        rw [make?_neg hd, hna, hnb]; rfl
      -- the quotient is refused at a negative scale and returned as built otherwise
      split_ifs at hend <;> cases hend <;> exact val_nonneg_of_neg_false hdn
    · cases hend
  · simp only [haz, if_true] at h
    cases h; simp

end Encumbrance.Decimal
