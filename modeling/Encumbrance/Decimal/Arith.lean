import Encumbrance.Decimal.Basic

/-!
# Decimal arithmetic

Sums, differences and products are computed exactly and then brought into range by
`Decimal.fit`; an amount that cannot be brought into range is an overflow. A zero operand of
a sum or difference leaves the other operand untouched, scale and all, so adding `0.00` to
`5` gives `5`; a zero first operand of a difference gives the second negated, unless that
is a zero too. A product with a zero factor is the plain zero `0`, and products and
quotients that round to zero are positive.

Two amounts of equal magnitude that cancel give a positive zero at the larger scale:
`-5.5 + 5.50` is `0.00`.

A quotient keeps its natural scale (the dividend's scale less the divisor's) when that is
exact. Otherwise it gains digits, up to nine at a time, until the division is exact, the
mantissa is full or the scale reaches 28; an inexact quotient is then rounded half to even.
Trailing zeros gained along the way are given back in steps of four, two and one digit, one
step each, so `5 / 10` is `0.50` and `1 / 8` is `0.125`.
-/

namespace Encumbrance

/-- Why an arithmetic operation has no result. -/
inductive ArithError where
  | additionOverflow
  | subtractionOverflow
  | multiplicationOverflow
  | divisionOverflow
  | divisionByZero
  deriving DecidableEq, Repr

namespace ArithError

/-- The text with which the operation gives up. -/
def message : ArithError → String
  | additionOverflow => "Addition overflowed"
  | subtractionOverflow => "Subtraction overflowed"
  | multiplicationOverflow => "Multiplication overflowed"
  | divisionOverflow => "Division overflowed"
  | divisionByZero => "Division by zero"

end ArithError

namespace Decimal

/-- The sum `a + b`, or the difference `a - b` when `subtract` is set. Both operands are
    brought to the larger scale; a cancellation gives the zero described at the top of this
    module. -/
def combine (subtract : Bool) (a b : Decimal) : Option Decimal :=
  if a.isZero then
    some (if subtract && !b.isZero then -b else b)
  else if b.isZero then
    some a
  else
    let s := max a.scale b.scale
    let x := a.mantissa * Nat.pow 10 (s - a.scale)
    let y := b.mantissa * Nat.pow 10 (s - b.scale)
    let differ := subtract != (a.neg != b.neg)
    if !differ then fit a.neg (x + y) s
    else if x == y then make? false 0 s
    else if y < x then fit a.neg (x - y) s
    else fit (!a.neg) (y - x) s

/-- The sum of two decimals. -/
def add (a b : Decimal) : Except ArithError Decimal :=
  match combine false a b with
  | some d => .ok d
  | none => .error .additionOverflow

/-- The difference of two decimals. -/
def sub (a b : Decimal) : Except ArithError Decimal :=
  match combine true a b with
  | some d => .ok d
  | none => .error .subtractionOverflow

/-- The scale past which a product of two one-word mantissas is taken as zero. -/
def productScaleCutoff : Nat := 47

/-- The product of two decimals: the scales add, and digits beyond what fits are rounded
    away. A zero factor gives the plain zero. -/
def mul (a b : Decimal) : Except ArithError Decimal :=
  if a.isZero || b.isZero then .ok zero
  else
    let s := a.scale + b.scale
    let neg := a.neg != b.neg
    if a.mantissa < Nat.pow 2 32 && b.mantissa < Nat.pow 2 32 && productScaleCutoff < s then .ok zero
    else
      match fit neg (a.mantissa * b.mantissa) s with
      | some d => .ok d.unsignZero
      | none => .error .multiplicationOverflow

/-! ## Section 1: Division -/

/-- How many digits a quotient mantissa `q` at scale `s` may gain in one step: the most, up
    to nine and up to a scale of 28, that keep it below `2^96`. Nine is granted whenever it
    fits; a smaller step that still leaves the scale negative means the quotient overflows. -/
def gainStep (q : Nat) (s : Int) : Option Nat :=
  let bound : Nat := if 28 ≤ s then 0 else min 9 (28 - s).toNat
  let fits (x : Nat) : Bool := q * Nat.pow 10 x < mantissaLimit
  let x := ((List.range (bound + 1)).filter fits).foldl max 0
  if x = 9 then some 9
  else if x + s < 0 then none
  else some x

/-- Gives back trailing zeros gained while dividing: four digits, then two, then one, each
    at most once and only while the scale stays at least zero. -/
def shedZeros (q : Nat) (s : Int) : Nat × Int :=
  let step (p : Nat × Int) (k : Nat) : Nat × Int :=
    if (k : Int) ≤ p.2 && p.1 % Nat.pow 10 k == 0 then (p.1 / Nat.pow 10 k, p.2 - k) else p
  step (step (step (q, s) 4) 2) 1

/-- The state of a long division: quotient digits so far, the remainder, the scale, and
    whether a remainder was ever seen. -/
structure Quotient where
  q : Nat
  r : Nat
  s : Int
  inexact : Bool

/-- One round of long division by `d`. It ends the division (`.inl`) with a final mantissa
    and scale, or gains digits and goes on (`.inr`). -/
def divisionRound (d : Nat) (st : Quotient) : Except ArithError ((Nat × Int × Bool) ⊕ Quotient) :=
  let gain (x : Nat) (inexact : Bool) : Except ArithError ((Nat × Int × Bool) ⊕ Quotient) :=
    let scaled := st.q * Nat.pow 10 x
    if mantissaLimit ≤ scaled then .error .divisionOverflow
    else
      let t := st.r * Nat.pow 10 x
      let q' := scaled + t / d
      let r' := t % d
      let s' := st.s + x
      if q' < mantissaLimit then .ok (.inr ⟨q', r', s', inexact⟩)
      else if s' - 1 < 0 then .error .divisionOverflow
      else .ok (.inl (shiftRoundWith (r' != 0) q' 1, s' - 1, inexact))
  if st.r == 0 then
    if st.s < 0 then gain (min 9 (-st.s).toNat) st.inexact
    else .ok (.inl (st.q, st.s, st.inexact))
  else
    match gainStep st.q st.s with
    | none => .error .divisionOverflow
    | some 0 =>
      let up := 2 * st.r > d || (2 * st.r == d && st.q % 2 == 1)
      if !up then .ok (.inl (st.q, st.s, true))
      else if st.q + 1 < mantissaLimit then .ok (.inl (st.q + 1, st.s, true))
      else if st.s - 1 < 0 then .error .divisionOverflow
      else .ok (.inl (shiftRoundWith true (st.q + 1) 1, st.s - 1, true))
    | some x => gain x true

/-- Runs division rounds until one ends the division. Every round raises the scale or ends,
    and the scale is confined to `-28 ..= 28`, so sixty rounds always suffice. -/
def divisionLoop (d : Nat) : Nat → Quotient → Except ArithError (Nat × Int × Bool)
  | 0, _ => .error .divisionOverflow
  | fuel + 1, st => do
    match ← divisionRound d st with
    | .inl done => pure done
    | .inr st' => divisionLoop d fuel st'

/-- The quotient of two decimals, as described at the top of this module. -/
def div (a b : Decimal) : Except ArithError Decimal := do
  if b.isZero then throw .divisionByZero
  if a.isZero then return zero
  let start : Quotient :=
    ⟨a.mantissa / b.mantissa, a.mantissa % b.mantissa, (a.scale : Int) - b.scale, false⟩
  let (q, s, inexact) ← divisionLoop b.mantissa 60 start
  let (q, s) := if inexact then shedZeros q s else (q, s)
  match ofParts? (a.neg != b.neg) q s.toNat with
  | some d => if s < 0 then throw .divisionOverflow else pure d
  | none => throw .divisionOverflow

/-- Sums a list from the plain zero, left to right. -/
def sum (xs : List Decimal) : Except ArithError Decimal :=
  xs.foldlM add zero

end Decimal

end Encumbrance
