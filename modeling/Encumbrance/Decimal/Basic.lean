/-!
# Decimal amounts

Every amount of money in the library is a `Decimal`: a sign, an unsigned mantissa below
`2^96` and a scale from 0 to 28. The value is `±mantissa / 10^scale`.

The scale is part of the amount, not only of its text: `120.50` and `120.5` are equal as
numbers but print differently, and sums and products carry the scale along. Zero may carry
either sign: a negative zero is equal to zero but prints with its sign (`-0.00`). Negation
flips the sign of a zero too; most other results that come out zero are positive
(`ofParts?`).

This module holds the type, its order, its text, and the one rounding step that every
arithmetic operation ends with (`Decimal.fit`).
-/

namespace Encumbrance

/-- Mantissas stay strictly below this bound (96 bits). -/
def mantissaLimit : Nat := Nat.pow 2 96

/-- The largest scale a decimal may carry. -/
def maxScale : Nat := 28

/-- A signed decimal `±mantissa / 10^scale` with a 96-bit mantissa and a scale of at most 28. -/
structure Decimal where
  neg : Bool
  mantissa : Nat
  scale : Nat
  mantissa_lt : mantissa < mantissaLimit
  scale_le : scale ≤ maxScale

namespace Decimal

instance : DecidableEq Decimal := fun a b =>
  if h : a.neg = b.neg ∧ a.mantissa = b.mantissa ∧ a.scale = b.scale then
    isTrue (by cases a; cases b; simp_all)
  else
    isFalse (by intro e; subst e; exact h ⟨rfl, rfl, rfl⟩)

/-- Builds a decimal when the mantissa and scale are in range. -/
def make? (neg : Bool) (m s : Nat) : Option Decimal :=
  if h : m < mantissaLimit ∧ s ≤ maxScale then some ⟨neg, m, s, h.1, h.2⟩ else none

/-- Builds a result the way arithmetic does: a zero never keeps a minus sign. -/
def ofParts? (neg : Bool) (m s : Nat) : Option Decimal := make? (neg && m != 0) m s

/-- Clears the sign bit of a zero. -/
def unsignZero (d : Decimal) : Decimal := if d.mantissa == 0 then { d with neg := false } else d

/-- The zero of scale 0 that sums start from. -/
def zero : Decimal := ⟨false, 0, 0, by decide, by decide⟩

/-- One hundredth, `0.01`: the smallest step of a two-place amount. -/
def cent : Decimal := ⟨false, 1, 2, by decide, by decide⟩

/-- A whole number below `2^96`, at scale 0; larger numbers are cut to the bound. -/
def ofNat (n : Nat) : Decimal :=
  if h : n < mantissaLimit then ⟨false, n, 0, h, by decide⟩
  else ⟨false, mantissaLimit - 1, 0, by decide, by decide⟩

instance : Inhabited Decimal := ⟨zero⟩

/-- The mantissa is zero, whatever the sign and scale. -/
def isZero (d : Decimal) : Bool := d.mantissa == 0

/-- The sign bit is set; this holds of a negative zero too. -/
def signNegative (d : Decimal) : Bool := d.neg

/-- Strictly below zero: the sign bit is set and the mantissa is not zero. -/
def isNegative (d : Decimal) : Bool := d.neg && d.mantissa != 0

/-- The signed mantissa. -/
def num (d : Decimal) : Int := if d.neg then -(d.mantissa : Int) else d.mantissa

/-- The same magnitude and scale with the sign bit flipped. -/
def negate (d : Decimal) : Decimal := { d with neg := !d.neg }

instance : Neg Decimal := ⟨negate⟩

/-- The magnitude: the same mantissa and scale with the sign bit cleared. -/
def abs (d : Decimal) : Decimal := { d with neg := false }

/-- Numeric order: both sides are brought to a common scale. Scale and the sign of zero do
    not matter. -/
def cmp (a b : Decimal) : Ordering :=
  compare (a.num * Int.pow 10 b.scale) (b.num * Int.pow 10 a.scale)

instance : Ord Decimal := ⟨cmp⟩

/-- Numeric equality, so `1.0` and `1.00` and `-0` and `0` are each equal. -/
def sameValue (a b : Decimal) : Bool := cmp a b == .eq

instance : LT Decimal := ⟨fun a b => cmp a b = .lt⟩
instance : LE Decimal := ⟨fun a b => cmp a b ≠ .gt⟩

instance (a b : Decimal) : Decidable (a < b) :=
  inferInstanceAs (Decidable (cmp a b = .lt))

instance (a b : Decimal) : Decidable (a ≤ b) :=
  inferInstanceAs (Decidable (cmp a b ≠ .gt))

/-- The larger of two decimals by value; on a tie, the second. -/
def maxByValue (a b : Decimal) : Decimal := if cmp b a == .lt then a else b

/-! ## Section 1: Text -/

/-- Plain positional text: the mantissa's digits with a point placed `scale` digits from
    the right, zero-padded on the left, after a minus sign when the sign bit is set. -/
def toText (d : Decimal) : String :=
  let digits := Nat.toDigits 10 d.mantissa
  let body :=
    if d.scale = 0 then String.ofList digits
    else
      let padded := List.replicate (d.scale + 1 - digits.length) '0' ++ digits
      let intLen := padded.length - d.scale
      String.ofList (padded.take intLen) ++ "." ++ String.ofList (padded.drop intLen)
  if d.neg then "-" ++ body else body

instance : ToString Decimal := ⟨toText⟩

instance : Repr Decimal := ⟨fun d _ => repr d.toText⟩

/-! ## Section 2: Rounding into range -/

/-- `m / 10^k` rounded to the nearest integer; a tie goes to the even neighbour unless
    `sticky` says that something nonzero was already cut below the digits of `m`. -/
def shiftRoundWith (sticky : Bool) (m k : Nat) : Nat :=
  let p := Nat.pow 10 k
  let q := m / p
  let r := m % p
  if 2 * r > p || (2 * r == p && (sticky || q % 2 == 1)) then q + 1 else q

/-- `m / 10^k` rounded to the nearest integer, a tie to the even neighbour. -/
def shiftRound (m k : Nat) : Nat := shiftRoundWith false m k

/-- The fewest trailing digits to drop from `m` for the rest to fit in 96 bits. -/
def digitsOver (m : Nat) : Nat :=
  if h : m < mantissaLimit then 0 else digitsOver (m / 10) + 1
termination_by m
decreasing_by
  have : 0 < m := Nat.lt_of_lt_of_le (by decide) (Nat.le_of_not_lt h)
  omega

/-- Brings the exact value `±m / 10^s` into range. It drops the fewest trailing digits that
    make the mantissa fit in 96 bits and the scale at most 28, rounding half to even. A
    rounding that carries up to `2^96` drops one digit more. `none` means the value needs
    more digits dropped than it has behind the point: it overflows. -/
def fit (neg : Bool) (m s : Nat) : Option Decimal :=
  let k := max (digitsOver m) (s - maxScale)
  if s < k then none
  else
    let q := shiftRound m k
    if q < mantissaLimit then make? neg q (s - k)
    else if s - k = 0 then none
    else make? neg (shiftRound q 1) (s - k - 1)

/-- Rounds to at most `places` digits behind the point, half to even. A value with fewer
    places is returned unchanged, so its scale is kept. A zero keeps its sign and takes the
    new scale; a value that rounds to zero is a positive zero. -/
def roundTo (d : Decimal) (places : Nat) : Decimal :=
  if d.scale ≤ places then d
  else if d.isZero then (make? d.neg 0 places).getD d
  else
    let q := shiftRound d.mantissa (d.scale - places)
    (ofParts? d.neg q places).getD d

end Decimal

end Encumbrance
