import Encumbrance.Float.Binary

/-!
# Numbers in JSON documents

A number written without a point or an exponent is a whole number when it fits in 64 bits:
unsigned when it has no minus sign, signed when it has one. `-0` is not a whole number.
Every other number becomes a double-precision float, and that float is computed quickly
rather than exactly:

* the digits are gathered into a 64-bit significand; once the next digit would overflow it,
  the remaining digits before the point only raise the exponent, and those after the point
  are dropped;
* the significand becomes the float nearest to it, which is then multiplied or divided, in
  one rounded step, by the float nearest to the power of ten (`1e0` to `1e308`); an
  exponent beyond that range divides by `1e308` until it is in range or the float is zero.

The result can differ from the float nearest to the literal in the last place, and amounts
given as JSON floats are taken from this float. A product that overflows is out of range,
as is an exponent too large for 32 bits when the significand is not zero; a hugely
negative exponent gives a zero.
-/

namespace Encumbrance

namespace Json

/-- What remains of the text. -/
abbrev Chars := List Char

/-- What a number reads as. -/
inductive NumberRead where
  | whole (i : Int)
  | float (f : Binary64)
  | outOfRange
  deriving Repr

/-- The largest 64-bit significand. -/
def significandLimit : Nat := Nat.pow 2 64 - 1

/-- The largest 32-bit exponent. -/
def exponentLimit : Nat := Nat.pow 2 31 - 1

/-- Whether `a * 10 + d` would pass `limit`. -/
def exceeds (limit a d : Nat) : Bool := a ≥ limit / 10 && (a > limit / 10 || d > limit % 10)

/-- The value of a decimal digit character. -/
def digitOf (c : Char) : Nat := c.toNat - 48

/-- Drops a run of digits. -/
def skipDigits (cs : Chars) : Chars := cs.dropWhile Char.isDigit

/-- Holds an exponent within the 32-bit range, as saturating arithmetic does. -/
def clampExponent (e : Int) : Int := max (-Int.pow 2 31) (min e exponentLimit)

/-- Scales `f` by `10^e` in rounded steps. An exponent beyond `±308` divides by `1e308` first;
    from a 64-bit significand two such divisions reach zero, so four rounds suffice. -/
def scaleByTen : Nat → Binary64 → Int → Option Binary64
  | 0, f, _ => some f
  | fuel + 1, f, e =>
    if e.natAbs ≤ 308 then
      if 0 ≤ e then
        let g := f.mul (Binary64.pow10 e.toNat)
        if g.isInfinite then none else some g
      else some (f.div (Binary64.pow10 e.natAbs))
    else if f.isZero then some f
    else if 0 ≤ e then none
    else scaleByTen fuel (f.div (Binary64.pow10 308)) (e + 308)

/-- The float `±significand * 10^exponent` of the quick reading, or `none` when it
    overflows. -/
def floatOfParts (positive : Bool) (significand : Nat) (exponent : Int) : Option Binary64 :=
  (scaleByTen 4 (Binary64.ofNat significand) exponent).map fun f =>
    if positive then f else f.negate

/-- Ends a float: its value, or out of range. -/
def finish (positive : Bool) (significand : Nat) (exponent : Int) (cs : Chars) :
    NumberRead × Chars :=
  match floatOfParts positive significand exponent with
  | some f => (.float f, cs)
  | none => (.outOfRange, cs)

/-- The digits of an exponent after its first one; `e` is the exponent so far. A 32-bit
    overflow makes the number out of range, or a zero when the significand is zero or the
    exponent negative. -/
def exponentDigits (positive : Bool) (significand : Nat) (start : Int) (up : Bool) :
    Nat → Chars → NumberRead × Chars
  | e, c :: rest =>
    if c.isDigit then
      if exceeds exponentLimit e (digitOf c) then
        if significand != 0 && up then (.outOfRange, skipDigits rest)
        else
          let zero : Binary64 := .finite false 0 0
          (.float (if positive then zero else zero.negate), skipDigits rest)
      else exponentDigits positive significand start up (e * 10 + digitOf c) rest
    else finish positive significand (clampExponent (if up then start + e else start - e)) (c :: rest)
  | e, [] => finish positive significand (clampExponent (if up then start + e else start - e)) []

/-- The exponent after `e` or `E`: an optional sign and at least one digit. -/
def readExponent (positive : Bool) (significand : Nat) (start : Int) (cs : Chars) :
    Except String (NumberRead × Chars) :=
  let (up, cs) := match cs with
    | '+' :: rest => (true, rest)
    | '-' :: rest => (false, rest)
    | _ => (true, cs)
  match cs with
  | c :: rest =>
    if c.isDigit then .ok (exponentDigits positive significand start up (digitOf c) rest)
    else .error "invalid number"
  | [] => .error "EOF while parsing a value"

/-- Ends a number after its digits: an exponent may follow. -/
def afterDigits (positive : Bool) (significand : Nat) (exponent : Int) (cs : Chars) :
    Except String (NumberRead × Chars) :=
  match cs with
  | e :: rest =>
    if e = 'e' || e = 'E' then readExponent positive significand exponent rest
    else .ok (finish positive significand exponent cs)
  | [] => .ok (finish positive significand exponent [])

/-- Digits after the point; `taken` of them are in the significand. Once one would overflow
    it, the rest are dropped. At least one digit must follow the point. -/
def fraction (positive : Bool) (before : Int) : Nat → Nat → Chars →
    Except String (NumberRead × Chars)
  | significand, taken, c :: rest =>
    if c.isDigit then
      if exceeds significandLimit significand (digitOf c) then
        afterDigits positive significand (before - taken) (skipDigits (c :: rest))
      else fraction positive before (significand * 10 + digitOf c) (taken + 1) rest
    else if taken == 0 then .error "invalid number"
    else afterDigits positive significand (before - taken) (c :: rest)
  | significand, taken, [] =>
    if taken == 0 then .error "EOF while parsing a value"
    else afterDigits positive significand (before - taken) []

/-- Digits before the point that no longer fit: each raises the exponent. -/
def longWhole (positive : Bool) (significand : Nat) : Int → Chars →
    Except String (NumberRead × Chars)
  | e, c :: rest =>
    if c.isDigit then longWhole positive significand (e + 1) rest
    else if c = '.' then fraction positive e significand 0 rest
    else afterDigits positive significand e (c :: rest)
  | e, [] => .ok (finish positive significand e [])

/-- After the whole digits that fit: a point, an exponent, or the end of a whole number. A
    negative whole number that does not fit in 64 signed bits, and `-0`, are floats. -/
def afterWhole (positive : Bool) (significand : Nat) (cs : Chars) :
    Except String (NumberRead × Chars) :=
  let whole : NumberRead :=
    if positive then .whole significand
    else if significand == 0 || significand > Nat.pow 2 63 then
      .float (Binary64.ofNat significand).negate
    else .whole (-(significand : Int))
  match cs with
  | '.' :: rest => fraction positive 0 significand 0 rest
  | e :: rest =>
    if e = 'e' || e = 'E' then readExponent positive significand 0 rest else .ok (whole, cs)
  | [] => .ok (whole, [])

/-- Whole digits after the first, while they fit in the significand. -/
def wholeDigits (positive : Bool) : Nat → Chars → Except String (NumberRead × Chars)
  | significand, c :: rest =>
    if c.isDigit then
      if exceeds significandLimit significand (digitOf c) then
        longWhole positive significand 0 (c :: rest)
      else wholeDigits positive (significand * 10 + digitOf c) rest
    else afterWhole positive significand (c :: rest)
  | significand, [] => afterWhole positive significand []

/-- Reads a number: an optional minus sign, then `0` or a digit run not starting with `0`,
    then an optional fraction and exponent. -/
def readNumber (cs : Chars) : Except String (NumberRead × Chars) :=
  let (positive, body) := match cs with
    | '-' :: rest => (false, rest)
    | _ => (true, cs)
  match body with
  | '0' :: rest =>
    match rest with
    | c :: _ => if c.isDigit then .error "invalid number" else afterWhole positive 0 rest
    | [] => afterWhole positive 0 []
  | c :: rest => if c.isDigit then wholeDigits positive (digitOf c) rest else .error "invalid number"
  | [] => .error "EOF while parsing a value"

end Json

end Encumbrance
