import Encumbrance.Text.Blank

/-!
# Calendar dates

Posting dates are days of the proleptic Gregorian calendar. They are read from text of the
form `year-month-day`: the year has one to four digits, or any number after an explicit `+`
or `-`; month and day have one or two digits. White space may stand before each number, and
before and after each dash and at the end. The date must exist (`2026-02-30` does not) and
its year must lie within `-262143 ..= 262142`.

A date is written back as four year digits (a sign and at least four digits outside
`0 ..= 9999`), then two month and two day digits.
-/

namespace Encumbrance

/-- A day of the proleptic Gregorian calendar. -/
structure Date where
  year : Int
  month : Nat
  day : Nat
  deriving DecidableEq, Repr

namespace Date

/-- Leap years: divisible by 4, except centuries not divisible by 400. -/
def isLeapYear (y : Int) : Bool := (y % 4 == 0 && y % 100 != 0) || y % 400 == 0

/-- The number of days in a month of a year. -/
def daysInMonth (y : Int) (m : Nat) : Nat :=
  match m with
  | 1 | 3 | 5 | 7 | 8 | 10 | 12 => 31
  | 4 | 6 | 9 | 11 => 30
  | 2 => if isLeapYear y then 29 else 28
  | _ => 0

/-- The earliest and latest representable years. -/
def minYear : Int := -262143
def maxYear : Int := 262142

/-- A date from its parts, when it exists. -/
def ofParts? (y : Int) (m d : Nat) : Option Date :=
  if minYear ≤ y && y ≤ maxYear && 1 ≤ m && m ≤ 12 && 1 ≤ d && d ≤ daysInMonth y m then
    some ⟨y, m, d⟩
  else none

/-- Chronological order. -/
def cmp (a b : Date) : Ordering :=
  (compare a.year b.year).then ((compare a.month b.month).then (compare a.day b.day))

instance : Ord Date := ⟨cmp⟩
instance : LE Date := ⟨fun a b => cmp a b ≠ .gt⟩

instance (a b : Date) : Decidable (a ≤ b) := inferInstanceAs (Decidable (cmp a b ≠ .gt))

/-! ## Section 1: Reading -/

/-- Reads between `lo` and `hi` decimal digits, returning the value and the rest. -/
def readNumber (lo hi : Nat) (cs : List Char) : Option (Nat × List Char) :=
  let digits := (cs.take hi).takeWhile Char.isDigit
  if digits.length < lo then none
  else
    some (digits.foldl (fun n c => n * 10 + (c.toNat - '0'.toNat)) 0, cs.drop digits.length)

/-- Reads the year: an explicit sign allows any number of digits, otherwise at most four. -/
def readYear (cs : List Char) : Option (Int × List Char) :=
  match cs.dropWhile Text.isWhite with
  | '-' :: rest => (readNumber 1 rest.length rest).map fun (n, r) => (-(n : Int), r)
  | '+' :: rest => (readNumber 1 rest.length rest).map fun (n, r) => ((n : Int), r)
  | rest => (readNumber 1 4 rest).map fun (n, r) => ((n : Int), r)

/-- Reads a dash, with white space allowed before it. -/
def readDash (cs : List Char) : Option (List Char) :=
  match cs.dropWhile Text.isWhite with
  | '-' :: rest => some rest
  | _ => none

/-- Reads `year-month-day` as described at the top of this module. -/
def read (text : String) : Option Date := do
  let (y, r) ← readYear text.toList
  let r ← readDash r
  let (m, r) ← readNumber 1 2 (r.dropWhile Text.isWhite)
  let r ← readDash r
  let (d, r) ← readNumber 1 2 (r.dropWhile Text.isWhite)
  if (r.dropWhile Text.isWhite).isEmpty then ofParts? y m d else none

/-! ## Section 2: Writing -/

/-- At least `width` digits, zero-padded on the left. -/
def padded (width n : Nat) : String :=
  let ds := Nat.toDigits 10 n
  String.ofList (List.replicate (width - ds.length) '0' ++ ds)

/-- `YYYY-MM-DD`, with a sign and at least four year digits outside `0 ..= 9999`. -/
def toText (d : Date) : String :=
  let y :=
    if 0 ≤ d.year && d.year ≤ 9999 then padded 4 d.year.toNat
    else (if d.year < 0 then "-" else "+") ++ padded 4 d.year.natAbs
  y ++ "-" ++ padded 2 d.month ++ "-" ++ padded 2 d.day

end Date

end Encumbrance
