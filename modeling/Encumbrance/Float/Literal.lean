import Encumbrance.Float.Binary

/-!
# Float literals

A float literal is a decimal as written, `±mantissa * 10^exponent`, or an infinity, or NaN.
What a literal means is the float it reads as, so its text, its zero test and its rounding to
a whole number all go through `Binary64.nearest`. A literal such as `2.50` therefore has the
text `2.5`, `1e2` has `100`, and `1e-400` is a zero.

The common notation read here is an optional sign and then digits with an optional point
and an optional exponent (`1.`, `.5`, `2e-3`), or `inf`, `infinity` or `nan` in any case.
-/

namespace Encumbrance

/-- A float as written: an exact decimal, or infinite, or NaN. -/
inductive FloatLiteral where
  | finite (negative : Bool) (mantissa : Nat) (exponent : Int)
  | infinite (negative : Bool)
  | nan
  deriving DecidableEq, Repr

namespace FloatLiteral

/-- The value of a run of decimal digits. -/
def digitsValue (cs : List Char) : Nat := cs.foldl (fun a c => a * 10 + (c.toNat - '0'.toNat)) 0

/-- Reads a signed exponent: an optional sign and at least one digit. -/
def readExponent (cs : List Char) : Option Int :=
  let (neg, body) := match cs with
    | '-' :: rest => (true, rest)
    | '+' :: rest => (false, rest)
    | cs => (false, cs)
  if body.isEmpty || !body.all Char.isDigit then none
  else
    let n := digitsValue body
    some (if neg then -(n : Int) else n)

/-- Reads a literal in the common notation described at the top of this module. -/
def read (s : String) : Option FloatLiteral :=
  let (neg, body) := match s.toList with
    | '-' :: rest => (true, rest)
    | '+' :: rest => (false, rest)
    | cs => (false, cs)
  let word := String.ofList (body.map Char.toLower)
  if word == "inf" || word == "infinity" then some (.infinite neg)
  else if word == "nan" then some .nan
  else
    let intPart := body.takeWhile Char.isDigit
    let rest := body.drop intPart.length
    let (frac, rest) := match rest with
      | '.' :: more => (more.takeWhile Char.isDigit, more.drop (more.takeWhile Char.isDigit).length)
      | _ => ([], rest)
    let expo : Option Int := match rest with
      | [] => some 0
      | e :: more => if e = 'e' || e = 'E' then readExponent more else none
    if intPart.isEmpty && frac.isEmpty then none
    else expo.map fun x => .finite neg (digitsValue (intPart ++ frac)) (x - frac.length)

/-- The float a literal reads as. -/
def toBinary : FloatLiteral → Binary64
  | finite neg m e => Binary64.nearest neg m e
  | infinite neg => .infinite neg
  | nan => .nan

/-- The text of the float a literal reads as. -/
def toText (f : FloatLiteral) : String := f.toBinary.text

/-- Whether a literal reads as a zero. -/
def isZero (f : FloatLiteral) : Bool := f.toBinary.isZero

/-- A literal as a count: its float rounded half away from zero, then held within `0` and
    `2^64 - 1`. NaN counts as zero, and an infinity as the nearer end. -/
def toCount (f : FloatLiteral) : Nat :=
  match f.toBinary with
  | .infinite neg => if neg then 0 else Nat.pow 2 64 - 1
  | .nan => 0
  | b => min ((b.roundHalfAway.getD 0).toNat) (Nat.pow 2 64 - 1)

end FloatLiteral

end Encumbrance
