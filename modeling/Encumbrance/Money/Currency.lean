/-!
# Currencies

The engine knows six currencies by their ISO codes. A code is read after upper-casing
(with the full Unicode case map, so `jpY` is `JPY`) but without trimming. The yen has no
minor unit; the others count in hundredths.
-/

namespace Encumbrance

/-- The currencies the engine books in. -/
inductive Currency where
  | usd
  | idr
  | eur
  | sgd
  | jpy
  | thb
  deriving DecidableEq, Repr, Inhabited

namespace Currency

/-- The ISO code. -/
def code : Currency → String
  | usd => "USD"
  | idr => "IDR"
  | eur => "EUR"
  | sgd => "SGD"
  | jpy => "JPY"
  | thb => "THB"

/-- Digits behind the point in the smallest unit. -/
def minorUnits : Currency → Nat
  | jpy => 0
  | _ => 2

/-- The smallest unit as text: `1` or `0.01`. -/
def minorUnitText : Currency → String
  | jpy => "1"
  | _ => "0.01"

/-- Every currency, in a fixed order. -/
def all : List Currency := [usd, idr, eur, sgd, jpy, thb]

/-- Reads an exact code. -/
def ofCode? (s : String) : Option Currency := all.find? (·.code == s)

/-- The upper-case form of a character when it consists of Latin capitals `A` to `Z` only.
    Besides the small Latin letters these are the dotless i, the long s, the sharp s and the
    Latin ligatures, whose capitals have one to three letters. Every other character's
    capital contains something that is not a Latin capital, so no code can contain it. -/
def latinCapitals (c : Char) : Option String :=
  if 'A' ≤ c && c ≤ 'Z' then some (String.singleton c)
  else if 'a' ≤ c && c ≤ 'z' then some (String.singleton (Char.ofNat (c.toNat - 32)))
  else match c.toNat with
    | 0x131 => some "I"
    | 0x17F => some "S"
    | 0xDF => some "SS"
    | 0xFB00 => some "FF"
    | 0xFB01 => some "FI"
    | 0xFB02 => some "FL"
    | 0xFB03 => some "FFI"
    | 0xFB04 => some "FFL"
    | 0xFB05 => some "ST"
    | 0xFB06 => some "ST"
    | _ => none

/-- Reads a code after upper-casing it; white space is not trimmed. -/
def read? (s : String) : Option Currency :=
  (s.toList.mapM latinCapitals).bind fun parts => ofCode? (String.join parts)

end Currency

end Encumbrance
