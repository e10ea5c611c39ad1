/-!
# Double-precision floats and their shortest decimals

A double-precision float is a sign with `m * 2^q`, where `m < 2^53` and `-1074 ≤ q ≤ 971`,
or an infinity, or NaN. Settings and JSON documents may write amounts as floats. Such an
amount means the float the literal reads as, written back as the shortest decimal. The
computations behind that are all in exact integer arithmetic:

* `roundRatio` rounds an exact fraction to the nearest float: a tie goes to the even
  significand; above the largest float it is an infinity, below half the least one a zero.
  `nearest` reads a decimal `M * 10^E` this way, and `mul` and `div` round exact products
  and quotients, as floating-point hardware does.
* `shortest` finds the decimal with the fewest significant digits that reads back as a given
  float. Of two such decimals, the nearer one wins; on an exact tie, the upper one.

The text of a float is that decimal written in full, without an exponent, so `1e2` is
`100` and `1e-3` is `0.001`. A negative zero keeps its sign (`-0`), and the others are
`inf`, `-inf` and `NaN`. JSON documents write floats differently (`jsonText`): a tie of
shortest decimals goes to the even one, and very large or small values take an exponent.
-/

namespace Encumbrance

/-- A double-precision float. -/
inductive Binary64 where
  /-- The value `m * 2^q`, negated when `neg` is set; zero has `m = 0`. -/
  | finite (neg : Bool) (m : Nat) (q : Int)
  | infinite (neg : Bool)
  | nan
  deriving DecidableEq, Repr

namespace Binary64

/-- The least exponent of a subnormal float. -/
def minExponent : Int := -1074

/-- The greatest exponent of a finite float. -/
def maxExponent : Int := 971

/-- Compares `a * 10^i` with `n * 2^j` exactly. -/
def cmpScaled (a : Nat) (i : Int) (n : Nat) (j : Int) : Ordering :=
  compare (a * Nat.pow 10 i.toNat * Nat.pow 2 (-j).toNat) (n * Nat.pow 2 j.toNat * Nat.pow 10 (-i).toNat)

/-- Compares `num` with `den * 2^k` exactly. -/
def cmpPow2 (num den : Nat) (k : Int) : Ordering :=
  compare (num * Nat.pow 2 (-k).toNat) (den * Nat.pow 2 k.toNat)

/-- The number of decimal digits of `n`, at least one. -/
def digitCount (n : Nat) : Nat := (Nat.toDigits 10 n).length

/-- Rounds `num / den` to a whole number, a tie to the even one. -/
def roundHalfEven (num den : Nat) : Nat :=
  let m := num / den
  let r := num % den
  if 2 * r > den || (2 * r == den && m % 2 == 1) then m + 1 else m

/-- The float nearest to `num / den` (`den > 0`), negated when `neg` is set. A tie goes to
    the even significand; a value too large for any finite float is an infinity, and one
    below half the least subnormal a zero. -/
def roundRatio (neg : Bool) (num den : Nat) : Binary64 :=
  if num == 0 || den == 0 then finite neg 0 0
  else
    let c : Int := (Nat.log2 num : Int) - (Nat.log2 den : Int)
    -- the quotient lies in `[2^k, 2^(k+1))`, and `k` is `c` or `c - 1`
    let k := if cmpPow2 num den c != .lt then c else c - 1
    let q := max (k - 52) minExponent
    let m := roundHalfEven (num * Nat.pow 2 (-q).toNat) (den * Nat.pow 2 q.toNat)
    let (m, q) := if m == Nat.pow 2 53 then (Nat.pow 2 52, q + 1) else (m, q)
    if m == 0 then finite neg 0 0
    else if maxExponent < q then infinite neg else finite neg m q

/-- The float nearest to `M * 10^E`, negated when `neg` is set. A value of `10^309` or more
    is an infinity without further work, and one below `10^-324` is a zero. -/
def nearest (neg : Bool) (M : Nat) (E : Int) : Binary64 :=
  let d : Int := digitCount M
  if M == 0 || E + d ≤ -324 then finite neg 0 0
  else if 310 ≤ E + d then infinite neg
  else roundRatio neg (M * Nat.pow 10 E.toNat) (Nat.pow 10 (-E).toNat)

/-- The float nearest to a whole number. -/
def ofNat (n : Nat) : Binary64 := roundRatio false n 1

/-- The float nearest to `10^i`, the value a literal `1e{i}` denotes. -/
def pow10 (i : Nat) : Binary64 := nearest false 1 i

/-- The same float with the sign flipped; zeros and infinities have a sign too. -/
def negate : Binary64 → Binary64
  | finite neg m q => finite (!neg) m q
  | infinite neg => infinite (!neg)
  | nan => nan

/-- Whether the float is an infinity. -/
def isInfinite : Binary64 → Bool
  | infinite _ => true
  | _ => false

/-- The product, rounded to the nearest float. Infinity times zero is NaN. -/
def mul : Binary64 → Binary64 → Binary64
  | finite n₁ m₁ q₁, finite n₂ m₂ q₂ =>
    let q := q₁ + q₂
    roundRatio (n₁ != n₂) (m₁ * m₂ * Nat.pow 2 q.toNat) (Nat.pow 2 (-q).toNat)
  | finite n₁ m _, infinite n₂ => if m == 0 then nan else infinite (n₁ != n₂)
  | infinite n₁, finite n₂ m _ => if m == 0 then nan else infinite (n₁ != n₂)
  | infinite n₁, infinite n₂ => infinite (n₁ != n₂)
  | _, _ => nan

/-- The quotient, rounded to the nearest float. A nonzero value over zero is an infinity;
    zero over zero and infinity over infinity are NaN. -/
def div : Binary64 → Binary64 → Binary64
  | finite n₁ m₁ q₁, finite n₂ m₂ q₂ =>
    if m₂ == 0 then (if m₁ == 0 then nan else infinite (n₁ != n₂))
    else
      let q := q₁ - q₂
      roundRatio (n₁ != n₂) (m₁ * Nat.pow 2 q.toNat) (m₂ * Nat.pow 2 (-q).toNat)
  | finite n₁ _ _, infinite n₂ => finite (n₁ != n₂) 0 0
  | infinite n₁, finite n₂ _ _ => infinite (n₁ != n₂)
  | _, _ => nan

/-- Whether `d * 10^e` reads back as the float `m * 2^q` (`m > 0`). It must lie between the
    points halfway to the neighbouring floats, and may lie on them when `m` is even. Below
    the least significand of a binade the neighbour is half as far away. -/
def readsBack (m : Nat) (q : Int) (d : Nat) (e : Int) : Bool :=
  let narrow := m == Nat.pow 2 52 && minExponent < q
  let lo := if narrow then 4 * m - 1 else 4 * m - 2
  let hi := 4 * m + 2
  let ends := m % 2 == 0
  let cl := cmpScaled d e lo (q - 2)
  let ch := cmpScaled d e hi (q - 2)
  (cl == .gt || (ends && cl == .eq)) && (ch == .lt || (ends && ch == .eq))

/-- Moves `k` up while `10^k ≤ m * 2^q` and then down while `m * 2^q < 10^(k-1)`. -/
def settleScale (m : Nat) (q : Int) : Nat → Int → Int
  | 0, k => k
  | fuel + 1, k =>
    if cmpScaled 1 k m q != .gt then settleScale m q fuel (k + 1)
    else if cmpScaled 1 (k - 1) m q == .gt then settleScale m q fuel (k - 1)
    else k

/-- The least `k` with `m * 2^q < 10^k`, for `m > 0`: estimated from the binary exponent,
    then corrected by exact comparison. -/
def decimalScale (m : Nat) (q : Int) : Int :=
  let lg : Int := (Nat.log2 m : Int) + q
  settleScale m q 8 (lg * 30103 / 100000 + 1)

/-- The decimal with `n` significant digits nearest to `m * 2^q` that reads back, if one
    does; `k` is the decimal scale of the value. Of two equally near ones, `tieUp` takes the
    upper, otherwise the even one. -/
def candidate (tieUp : Bool) (m : Nat) (q k : Int) (n : Nat) : Option (Nat × Int) :=
  let t := k - n
  -- the value is `numer / denom` units of `10^t`
  let numer := m * Nat.pow 2 q.toNat * Nat.pow 10 (-t).toNat
  let denom := Nat.pow 2 (-q).toNat * Nat.pow 10 t.toNat
  let below := numer / denom
  let above := below + 1
  match readsBack m q below t, readsBack m q above t with
  | true, true =>
    let twice := 2 * numer
    let middle := (below + above) * denom
    if twice < middle || (twice == middle && !tieUp && below % 2 == 0) then some (below, t)
    else some (above, t)
  | true, false => some (below, t)
  | false, true => some (above, t)
  | false, false => none

/-- Drops trailing zeros of the digits into the exponent. -/
def stripZeros : Nat → Nat × Int → Nat × Int
  | 0, p => p
  | fuel + 1, (d, e) => if d != 0 && d % 10 == 0 then stripZeros fuel (d / 10, e + 1) else (d, e)

/-- The shortest decimal `(digits, exponent)` that reads back as `m * 2^q`, for `m > 0`.
    Seventeen digits always suffice; the exact value stands behind that bound. Of two
    equally near shortest decimals, `tieUp` takes the upper, otherwise the even one. -/
def shortestWith (tieUp : Bool) (m : Nat) (q : Int) : Nat × Int :=
  let k := decimalScale m q
  let found := (List.range 17).findSome? fun i => candidate tieUp m q k (i + 1)
  let exact : Nat × Int := if 0 ≤ q then (m * Nat.pow 2 q.toNat, 0) else (m * Nat.pow 5 (-q).toNat, q)
  let p := found.getD exact
  stripZeros (digitCount p.1) p

/-- The shortest decimal that reads back, ties taken upwards: the digits of `text`. -/
def shortest (m : Nat) (q : Int) : Nat × Int := shortestWith true m q

/-- Writes `d * 10^e` in full, without an exponent. -/
def plainText (d : Nat) (e : Int) : String :=
  let ds := Nat.toDigits 10 d
  if 0 ≤ e then String.ofList (ds ++ List.replicate e.toNat '0')
  else
    let k := (-e).toNat
    if k < ds.length then String.ofList (ds.take (ds.length - k) ++ '.' :: ds.drop (ds.length - k))
    else "0." ++ String.ofList (List.replicate (k - ds.length) '0' ++ ds)

/-- The text of a float: its shortest decimal in full, `inf`, `-inf` or `NaN`. -/
def text : Binary64 → String
  | finite neg m q =>
    let sign := if neg then "-" else ""
    if m == 0 then sign ++ "0"
    else
      let (d, e) := shortest m q
      sign ++ plainText d e
  | infinite neg => if neg then "-inf" else "inf"
  | nan => "NaN"

/-- The text a JSON document gives a float: the shortest decimal, an equal tie going to the
    even digits, written with a point and at least one digit on each side of it while the
    decimal exponent is moderate (`12340000000.0`, `12.34`, `0.001234`), and otherwise as
    digits with an exponent (`1e30`, `1.234e33`, `1e-7`). A non-finite float is written
    `null`, as JSON has no word for it. -/
def jsonText : Binary64 → String
  | finite neg m q =>
    let sign := if neg then "-" else ""
    if m == 0 then sign ++ "0.0"
    else
      let (d, e) := shortestWith false m q
      let ds := Nat.toDigits 10 d
      let len : Int := ds.length
      let kk := len + e
      let expText (x : Int) : String := if x < 0 then "-" ++ toString x.natAbs else toString x
      let body :=
        if 0 ≤ e && kk ≤ 16 then String.ofList (ds ++ List.replicate e.toNat '0') ++ ".0"
        else if 0 < kk && kk ≤ 16 then
          String.ofList (ds.take kk.toNat) ++ "." ++ String.ofList (ds.drop kk.toNat)
        else if -5 < kk && kk ≤ 0 then
          "0." ++ String.ofList (List.replicate (-kk).toNat '0' ++ ds)
        else if ds.length == 1 then String.ofList ds ++ "e" ++ expText (kk - 1)
        else String.ofList (ds.take 1) ++ "." ++ String.ofList (ds.drop 1) ++ "e" ++ expText (kk - 1)
      sign ++ body
  | _ => "null"

/-- Whether the float is a zero of either sign. -/
def isZero : Binary64 → Bool
  | finite _ m _ => m == 0
  | _ => false

/-- A finite float rounded to a whole number, a half away from zero. -/
def roundHalfAway : Binary64 → Option Int
  | finite neg m q =>
    let n : Nat :=
      if 0 ≤ q then m * Nat.pow 2 q.toNat
      else
        let p := Nat.pow 2 (-q).toNat
        if 2 * (m % p) ≥ p then m / p + 1 else m / p
    some (if neg then -(n : Int) else n)
  | _ => none

end Binary64

end Encumbrance
