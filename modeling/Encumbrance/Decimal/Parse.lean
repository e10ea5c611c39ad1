import Encumbrance.Decimal.Arith

/-!
# Reading decimal text

Amounts arrive as text. Two forms are read:

* **Plain**: an optional sign as the first character, digits with at most one point, and
  underscores anywhere after the first digit. `1_000`, `+5`, `.5` and `5.` are all plain,
  and the digits after the point set the scale. Too many digits before the point is an
  error. A zero never reads as negative.
* **Scientific**, tried when the plain form fails: a plain base, then `e` or `E`, then an
  exponent of at most 28 (`1e3`, `1.5E-2`). A negative exponent moves the point to the
  left; when that would pass 28 places, the value is rounded to 28 places, a half away from
  zero, and keeps its sign even when it rounds to zero (`-0.1e-28` is `-0.0000…`). A
  positive exponent beyond the base's scale multiplies the base by the power of ten (in
  factors of at most `10^19`) and then drops the trailing zeros, so `1.50e3` reads as
  `1500`; a product too large is an error.

Plain text with more digits than fit is rounded, and where it is rounded depends on the
length of the text. Text of 18 bytes or more is read into a wide mantissa once its digits
pass `1844674407370954906`. The reading stops at a rounding character:

* once 28 digits stand behind the point, the next character;
* on the wide mantissa, the digit that would carry it past 96 bits (before the point that
  is an error);
* on the wide mantissa with 28 places, an underscore right after the 28th place defers to
  the character after it.

A rounding digit of 5 or more rounds up (an underscore counts as 0, anything else is an
error), a carry past 96 bits drops one more place, and all text after the rounding
character must be digits or underscores.
-/

namespace Encumbrance

namespace Decimal

/-- The value of a decimal digit character. -/
def digitValue (c : Char) : Option Nat :=
  if c.isDigit then some (c.toNat - '0'.toNat) else none

/-- Text of this many bytes or more is read with a wide mantissa. -/
def wideLength : Nat := 18

/-- A narrow mantissa at or past this switches to the wide one. -/
def wideFrom : Nat := (Nat.pow 2 64 - 1) / 10 - 255

/-- The result of a plain reading: a zero never keeps a minus sign. -/
def plainResult (neg : Bool) (m s : Nat) : Option Decimal := ofParts? neg m s

/-- Ends a reading at its rounding character `c`, followed by `rest`. -/
def roundAt (neg : Bool) (m s : Nat) (c : Char) (rest : List Char) : Option Decimal := do
  let d ← if c = '_' then some 0 else digitValue c
  if !rest.all fun x => x.isDigit || x = '_' then none
  if d < 5 then plainResult neg m s
  else if m + 1 < mantissaLimit then plainResult neg (m + 1) s
  else if s = 0 then none
  else plainResult neg ((m + 1 + 4) / 10) (s - 1)

/-- Reads with the wide mantissa `m`, at scale `s`, the character `c` and then `rest`. -/
def readWide (neg point : Bool) (m s : Nat) (c : Char) (rest : List Char) : Option Decimal :=
  match digitValue c with
  | some d =>
    let m' := m * 10 + d
    if mantissaLimit ≤ m' then
      if point then roundAt neg m s c rest else none
    else
      let s' := if point then s + 1 else s
      match rest with
      | [] => plainResult neg m' s'
      | next :: more =>
        if point && maxScale ≤ s' then
          if next = '_' then
            match more with
            | [] => plainResult neg m' s'
            | after :: tail => roundAt neg m' s' after tail
          else roundAt neg m' s' next more
        else readWide neg point m' s' next more
  | none =>
    if c = '.' && !point then
      match rest with
      | [] => plainResult neg m s
      | next :: more => readWide neg true m s next more
    else if c = '_' then
      match rest with
      | [] => plainResult neg m s
      | next :: more => readWide neg point m s next more
    else none

/-- Reads with the narrow mantissa `m`: `seen` records that a digit was read, `point` that
    the point was passed, `first` that `c` is the first character. -/
def readNarrow (wide : Bool) (neg point seen first : Bool) (m s : Nat) (c : Char)
    (rest : List Char) : Option Decimal :=
  match digitValue c with
  | some d =>
    let m' := m * 10 + d
    let s' := if point then s + 1 else 0
    match rest with
    | [] => plainResult neg m' s'
    | next :: more =>
      if point && wide && maxScale ≤ s' then roundAt neg m' s' next more
      else if wide && wideFrom ≤ m' then readWide neg point m' s' next more
      else readNarrow wide neg point true false m' s' next more
  | none =>
    let go (neg point seen : Bool) : Option Decimal :=
      match rest with
      | [] => if seen then plainResult neg m s else none
      | next :: more => readNarrow wide neg point seen false m s next more
    if c = '.' && !point then go neg true seen
    else if c = '-' && first then go true point seen
    else if c = '+' && first then go neg point seen
    else if c = '_' && seen then go neg point seen
    else none

/-- Reads plain decimal text. -/
def readPlain (text : String) : Option Decimal :=
  match text.toList with
  | [] => none
  | c :: rest => readNarrow (wideLength ≤ text.utf8ByteSize) false false false true 0 0 c rest

/-- Reads an unsigned 32-bit count: an optional `+` and at least one digit. -/
def readCount (text : String) : Option Nat :=
  let cs := match text.toList with
    | '+' :: rest => rest
    | cs => cs
  if cs.isEmpty then none
  else
    let n? := cs.foldl (fun acc c => acc.bind fun n => (digitValue c).map (n * 10 + ·)) (some 0)
    n?.bind fun n => if n < Nat.pow 2 32 then some n else none

/-- Drops trailing zeros behind the point; any zero becomes the plain zero. -/
def normalize (d : Decimal) : Decimal :=
  if d.isZero then zero
  else
    let rec strip (m s : Nat) (fuel : Nat) : Nat × Nat :=
      match fuel with
      | 0 => (m, s)
      | fuel + 1 => if 0 < s && m % 10 == 0 then strip (m / 10) (s - 1) fuel else (m, s)
    let (m, s) := strip d.mantissa d.scale d.scale
    (make? d.neg m s).getD d

/-- Multiplies by `10^e` in factors of at most `10^19`, as decimal products. -/
def scaleUp (d : Decimal) : Nat → Nat → Option Decimal
  | 0, _ => some d
  | _, 0 => some d
  | fuel + 1, e =>
    let k := min e 19
    match mul d (ofNat (Nat.pow 10 k)) with
    | .ok d' => scaleUp d' fuel (e - k)
    | .error _ => none

/-- `m / 10^k` rounded to a whole number, a half away from zero. -/
def shiftRoundAway (m k : Nat) : Nat :=
  let p := Nat.pow 10 k
  if 2 * (m % p) ≥ p then m / p + 1 else m / p

/-- Moves the point of `d` by `e` places to the left. Past 28 places the value is rounded
    to 28, a half away from zero, and keeps its sign. -/
def shiftLeft (d : Decimal) (e : Nat) : Option Decimal :=
  if d.scale + e ≤ maxScale then make? d.neg d.mantissa (d.scale + e)
  else make? d.neg (shiftRoundAway d.mantissa (d.scale + e - maxScale)) maxScale

/-- Reads scientific text `base e exponent`. -/
def readScientific (text : String) : Option Decimal := do
  let cs := text.toList
  let i ← cs.findIdx? (fun c => c = 'e' || c = 'E')
  let base ← readPlain (String.ofList (cs.take i))
  let exp := cs.drop (i + 1)
  match exp with
  | '-' :: rest =>
    let e ← readCount (String.ofList rest)
    if maxScale < e then none else shiftLeft base e
  | _ =>
    let e ← readCount (String.ofList exp)
    if maxScale < e then none
    else if e ≤ base.scale then make? base.neg base.mantissa (base.scale - e)
    else (scaleUp base 2 e).map normalize

/-- Reads an amount: plain text first, scientific text when that fails. -/
def read (text : String) : Option Decimal :=
  (readPlain text).orElse fun _ => readScientific text

end Decimal

end Encumbrance
