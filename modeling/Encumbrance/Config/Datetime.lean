import Encumbrance.Calendar.Date

/-!
# Date-times in settings files

A settings file may give a date, a time of day, or both, with an offset from UTC when both
are given:

    1979-05-27            1979-05-27T07:32:00Z       07:32
    1979-05-27 07:32      1979-05-27t07:32:00.5-07:00

The date is four year digits and two month and day digits, and must exist. The date and the
time are joined by `T`, `t` or a space. The time is two hour and minute digits, then
optionally two second digits and then optionally a fraction of at least one digit; the hour
is at most 23, the minute at most 59 and the second at most 60. The offset is `Z`, `z`, or a
sign and two hour and minute digits, with the hour at most 23 and the minute at most 59.

A date-time is written back in one form whatever form it was read in: `T` between date and
time, `Z` for UTC, `+` for an offset of zero minutes, and the seconds and the fraction only
when they were given. The fraction keeps nine digits at most, and is written without its
trailing zeros but with at least one digit.
-/

namespace Encumbrance

/-- A time of day. The seconds and the fraction of a second are there when they were given;
    the fraction is in nanoseconds. -/
structure TomlTime where
  hour : Nat
  minute : Nat
  second : Option Nat
  nanosecond : Option Nat
  deriving DecidableEq, Repr

/-- An offset from UTC: UTC itself, or a signed number of minutes. -/
inductive TomlOffset where
  | utc
  | minutes (m : Int)
  deriving DecidableEq, Repr

/-- A date, a time, or both, with an offset only when both are there. -/
structure TomlDatetime where
  date : Option Date
  time : Option TomlTime
  offset : Option TomlOffset
  deriving DecidableEq, Repr

namespace TomlDatetime

/-- Exactly `n` decimal digits: their value and the rest. -/
def digits (n : Nat) (cs : List Char) : Option (Nat × List Char) :=
  let ds := cs.take n
  if ds.length == n && ds.all Char.isDigit then
    some (ds.foldl (fun a c => a * 10 + (c.toNat - '0'.toNat)) 0, cs.drop n)
  else none

/-- A date `YYYY-MM-DD` that exists. -/
def readDate (cs : List Char) : Option (Date × List Char) := do
  let (y, cs) ← digits 4 cs
  let cs ← match cs with | '-' :: rest => some rest | _ => none
  let (m, cs) ← digits 2 cs
  let cs ← match cs with | '-' :: rest => some rest | _ => none
  let (d, cs) ← digits 2 cs
  if 1 ≤ m && m ≤ 12 && 1 ≤ d && d ≤ Date.daysInMonth y m then some (⟨y, m, d⟩, cs) else none

/-- The nanoseconds of a fraction's digits: the first nine count, the rest are dropped. -/
def nanosOf (ds : List Char) : Nat :=
  ((ds.take 9).foldl (fun a c => a * 10 + (c.toNat - '0'.toNat)) 0) * Nat.pow 10 (9 - min 9 ds.length)

/-- A time `HH:MM`, with optional `:SS` and then an optional fraction. -/
def readTime (cs : List Char) : Option (TomlTime × List Char) := do
  let (h, cs) ← digits 2 cs
  let cs ← match cs with | ':' :: rest => some rest | _ => none
  let (m, cs) ← digits 2 cs
  if 23 < h || 59 < m then none
  match cs with
  | ':' :: rest =>
    let (s, cs) ← digits 2 rest
    if 60 < s then none
    match cs with
    | '.' :: rest =>
      let ds := rest.takeWhile Char.isDigit
      if ds.isEmpty then none
      else some (⟨h, m, some s, some (nanosOf ds)⟩, rest.drop ds.length)
    | _ => some (⟨h, m, some s, none⟩, cs)
  | _ => some (⟨h, m, none, none⟩, cs)

/-- An offset: `Z`, `z`, or `±HH:MM`. -/
def readOffset (cs : List Char) : Option (TomlOffset × List Char) :=
  match cs with
  | 'Z' :: rest => some (.utc, rest)
  | 'z' :: rest => some (.utc, rest)
  | c :: rest =>
    if c = '+' || c = '-' then do
      let (h, cs) ← digits 2 rest
      let cs ← match cs with | ':' :: more => some more | _ => none
      let (m, cs) ← digits 2 cs
      if 23 < h || 59 < m then none
      let total : Int := h * 60 + m
      some (.minutes (if c = '-' then -total else total), cs)
    else none
  | [] => none

/-- Reads a whole date-time; nothing may follow it. -/
def read? (cs : List Char) : Option TomlDatetime :=
  match readDate cs with
  | some (d, []) => some ⟨some d, none, none⟩
  | some (d, sep :: rest) =>
    if sep = 'T' || sep = 't' || sep = ' ' then do
      let (t, rest) ← readTime rest
      match rest with
      | [] => some ⟨some d, some t, none⟩
      | _ =>
        let (o, rest) ← readOffset rest
        if rest.isEmpty then some ⟨some d, some t, some o⟩ else none
    else none
  | none =>
    match readTime cs with
    | some (t, []) => some ⟨none, some t, none⟩
    | _ => none

/-- A time written back. -/
def timeText (t : TomlTime) : String :=
  let secs := match t.second with
    | some s => ":" ++ Date.padded 2 s
    | none => ""
  let frac := match t.nanosecond with
    | some n =>
      let ds := (Date.padded 9 n).toList.reverse.dropWhile (· = '0') |>.reverse
      "." ++ (if ds.isEmpty then "0" else String.ofList ds)
    | none => ""
  Date.padded 2 t.hour ++ ":" ++ Date.padded 2 t.minute ++ secs ++ frac

/-- An offset written back. -/
def offsetText : TomlOffset → String
  | .utc => "Z"
  | .minutes m =>
    let sign := if m < 0 then "-" else "+"
    sign ++ Date.padded 2 (m.natAbs / 60) ++ ":" ++ Date.padded 2 (m.natAbs % 60)

/-- A date-time written back in its one form. -/
def toText (dt : TomlDatetime) : String :=
  let date := match dt.date with
    | some d => Date.padded 4 d.year.toNat ++ "-" ++ Date.padded 2 d.month ++ "-" ++ Date.padded 2 d.day
    | none => ""
  let time := match dt.time with
    | some t => (if dt.date.isSome then "T" else "") ++ timeText t
    | none => ""
  let offset := match dt.offset with
    | some o => offsetText o
    | none => ""
  date ++ time ++ offset

end TomlDatetime

end Encumbrance
