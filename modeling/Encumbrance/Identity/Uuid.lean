/-!
# Identifiers

Ledger rows and batches are named by 128-bit identifiers, written as 32 hexadecimal digits in
groups of 8, 4, 4, 4 and 12 separated by dashes, in lower case. Text is read in four forms,
with hexadecimal digits of either case:

* grouped with dashes, as written (`0190a6b2-7c3e-7a1b-8c2d-1234567890ab`);
* the 32 digits alone;
* grouped and wrapped in braces;
* grouped after the prefix `urn:uuid:`, in any case.

The version is the high half of the seventh byte. Fresh identifiers are of version 7: the
top 48 bits hold a clock reading, so identifiers minted at later readings order after
earlier ones.
-/

namespace Encumbrance

/-- A 128-bit identifier. -/
structure Uuid where
  value : Fin (Nat.pow 2 128)
  deriving DecidableEq, Repr

namespace Uuid

/-- The value of a hexadecimal digit byte. -/
def hexDigit (b : UInt8) : Option Nat :=
  let n := b.toNat
  if 48 ≤ n && n ≤ 57 then some (n - 48)
  else if 97 ≤ n && n ≤ 102 then some (n - 87)
  else if 65 ≤ n && n ≤ 70 then some (n - 55)
  else none

/-- The number written by hexadecimal digit bytes, most significant first. -/
def hexValue (bs : List UInt8) : Option Nat :=
  bs.foldl (fun acc b => acc.bind fun n => (hexDigit b).map (n * 16 + ·)) (some 0)

/-- An identifier from the number its 32 digits write. -/
def ofNat? (n : Nat) : Option Uuid := if h : n < Nat.pow 2 128 then some ⟨⟨n, h⟩⟩ else none

/-- Reads 32 hexadecimal digits. -/
def readSimple (bs : List UInt8) : Option Uuid :=
  if bs.length = 32 then (hexValue bs).bind ofNat? else none

/-- The byte of a dash. -/
def dash : UInt8 := 45

/-- Reads 36 bytes: five groups of hexadecimal digits with dashes between them. -/
def readGrouped (bs : List UInt8) : Option Uuid :=
  if bs.length = 36 && bs[8]? == some dash && bs[13]? == some dash &&
      bs[18]? == some dash && bs[23]? == some dash then
    let digits := (bs.take 8) ++ (bs.drop 9).take 4 ++ (bs.drop 14).take 4 ++
      (bs.drop 19).take 4 ++ bs.drop 24
    readSimple digits
  else none

/-- An ASCII byte with upper-case letters made lower case. -/
def lowerByte (b : UInt8) : UInt8 := if 65 ≤ b && b ≤ 90 then b + 32 else b

/-- Reads any of the four accepted forms. -/
def read? (text : String) : Option Uuid :=
  let bs := text.toUTF8.toList
  let urn := "urn:uuid:".toUTF8.toList
  match bs.length with
  | 32 => readSimple bs
  | 36 => readGrouped bs
  | 38 =>
    if bs.head? == some 123 && bs.getLast? == some 125 then readGrouped ((bs.drop 1).take 36)
    else none
  | 45 => if (bs.take 9).map lowerByte == urn then readGrouped (bs.drop 9) else none
  | _ => none

/-- The lower-case hexadecimal digits of `n`, at least `width` of them. -/
def hexText (width n : Nat) : String :=
  let ds := Nat.toDigits 16 n
  String.ofList (List.replicate (width - ds.length) '0' ++ ds)

/-- The grouped lower-case form. -/
def toText (u : Uuid) : String :=
  let d := hexText 32 u.value.val
  let cs := d.toList
  let part (i n : Nat) : String := String.ofList ((cs.drop i).take n)
  part 0 8 ++ "-" ++ part 8 4 ++ "-" ++ part 12 4 ++ "-" ++ part 16 4 ++ "-" ++ part 20 12

/-- The version: bits 76 to 79, counted from the least significant. -/
def version (u : Uuid) : Nat := u.value.val / Nat.pow 2 76 % 16

/-- A version-7 identifier minted at clock reading `tick`: the reading fills the top 48
    bits, then come the version, the reading again as the counter, and the variant bits. -/
def mint (tick : Nat) : Uuid :=
  let t := tick % Nat.pow 2 48
  let v := t * Nat.pow 2 80 + 7 * Nat.pow 2 76 + (t % Nat.pow 2 12) * Nat.pow 2 64 + 2 * Nat.pow 2 62 + t % Nat.pow 2 62
  ⟨⟨v % Nat.pow 2 128, Nat.mod_lt _ (by decide)⟩⟩

instance : Ord Uuid := ⟨fun a b => compare a.value.val b.value.val⟩

/-- Identifiers minted at `n` consecutive clock readings from `start`. -/
def mintRun (start n : Nat) : List Uuid := (List.range n).map fun i => mint (start + i)

/-- Whether each identifier orders no later than the next. -/
def ordered (us : List Uuid) : Bool := (us.zip us.tail).all fun (a, b) => a.value.val ≤ b.value.val

/-- Whether no identifier occurs twice. -/
def distinct (us : List Uuid) : Bool := (us.map (·.value.val)).eraseDups.length == us.length

/-- The versions that occur, in increasing order. -/
def versions (us : List Uuid) : List Nat :=
  let vs := (us.map version).eraseDups
  (List.range 16).filter (vs.contains ·)

/-- What can be told about two runs of identifiers without showing them. -/
structure Survey where
  distinct : Bool
  firstOrdered : Bool
  secondOrdered : Bool
  versions : List Nat
  textLength : Nat

/-- Surveys two runs of identifiers. -/
def survey (first second : List Uuid) : Survey :=
  { distinct := distinct first && distinct second
    firstOrdered := ordered first
    secondOrdered := ordered second
    versions := versions (first ++ second)
    textLength := ((first ++ second).head?.map (·.toText.length)).getD 0 }

end Uuid

end Encumbrance
