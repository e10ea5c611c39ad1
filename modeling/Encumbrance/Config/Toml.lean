import Encumbrance.Float.Literal
import Encumbrance.Config.Datetime

/-!
# Reading TOML settings files

Settings files are TOML documents. This module reads one into a `TomlValue` tree: tables of
keys, with strings, integers, floats, booleans, date-times and arrays as leaves.

What is read is TOML 1.1: comments; bare, quoted and dotted keys; `[table]` and
`[[array of tables]]` headers; basic, literal and multi-line strings, with the escapes
`\b \t \n \f \r \e \" \\`, `\xHH`, `\uHHHH` and `\UHHHHHHHH`; decimal, hexadecimal,
octal and binary integers within 64 signed bits, with underscores between digits; floats
with fractions, exponents, `inf` and `nan`, where a finite float too large for a double is an
error; booleans; date-times (see `Config/Datetime`), whose seconds may be left out; arrays;
inline tables, which may span lines and hold comments and a trailing comma. A leading byte
order mark is skipped.

A table may be defined once. A `[header]` defines its table, and dotted keys define the
tables along their path; a table that only appears on the way to another one is implicit
and may still be defined later, by a header if no dotted key made it. Dotted keys may not
reach into a table that a header defined or made on its way, an inline table is closed once
written, and a header may not name an array or a value. A key given twice, a table defined
twice, a value followed by anything but a comment on its line, and every other departure
from the grammar make the document unreadable.
-/

namespace Encumbrance

/-- A value of a settings document. -/
inductive TomlValue where
  | text (s : String)
  | integer (i : Int)
  | float (f : FloatLiteral)
  | boolean (b : Bool)
  | datetime (d : TomlDatetime)
  | array (items : List TomlValue)
  | table (entries : List (String × TomlValue))
  deriving Repr, Inhabited

/-- How a table came to be, which decides how it may still be extended: an `implicit` table
    only lies on the way to another one, a `dotted` one was made by a dotted key, and an
    `inline` one was written whole between braces. -/
structure TableKind where
  implicit : Bool := false
  dotted : Bool := false
  inline : Bool := false
  deriving Repr, Inhabited

/-- A part of a document while it is read: a scalar, an array (of tables, when headers made
    it), or a table with how it came to be. -/
inductive TomlNode where
  | leaf (v : TomlValue)
  | array (items : List TomlNode) (ofTables : Bool)
  | table (entries : List (String × TomlNode)) (kind : TableKind)
  deriving Repr, Inhabited

namespace Toml

/-- What remains of the document. -/
abbrev Chars := List Char

/-- Entries of a table under construction. -/
abbrev Entries := List (String × TomlNode)

/-- The apostrophe, which delimits literal strings. -/
def apostrophe : Char := Char.ofNat 39

/-- The text starts with `n` copies of `q`. -/
def opensWith (q : Char) (n : Nat) (cs : Chars) : Bool :=
  cs.length ≥ n && (cs.take n).all (· == q)

/-- Spaces and tabs. -/
def isBlankChar (c : Char) : Bool := c = ' ' || c = '\t'

/-- Drops spaces and tabs. -/
def skipBlanks (cs : Chars) : Chars := cs.dropWhile isBlankChar

/-- Control characters other than tab may not stand in comments and strings. -/
def isControl (c : Char) : Bool := (c.toNat < 0x20 && c != '\t') || c.toNat == 0x7F

/-- Drops a comment up to the end of its line. -/
def skipComment (cs : Chars) : Except String Chars :=
  match cs with
  | '#' :: rest =>
    let body := rest.takeWhile (fun c => c != '\n' && c != '\r')
    if body.any isControl then .error "control character in comment"
    else .ok (rest.drop body.length)
  | _ => .ok cs

/-- Ends a line: blanks, an optional comment, then a line break or the end. -/
def endLine (cs : Chars) : Except String Chars := do
  let cs ← skipComment (skipBlanks cs)
  match cs with
  | [] => pure []
  | '\n' :: rest => pure rest
  | '\r' :: '\n' :: rest => pure rest
  | _ => throw "expected the end of the line"

/-- Skips blanks, comments and line breaks, as between array items. -/
def skipSpace (fuel : Nat) (cs : Chars) : Except String Chars :=
  match fuel with
  | 0 => .ok cs
  | fuel + 1 => do
    let cs ← skipComment (skipBlanks cs)
    match cs with
    | '\n' :: rest => skipSpace fuel rest
    | '\r' :: '\n' :: rest => skipSpace fuel rest
    | _ => pure cs

/-- Skips what may stand between the parts of an array or an inline table. -/
def skipAll (cs : Chars) : Except String Chars := skipSpace (cs.length + 1) cs

/-! ## Section 1: Strings -/

/-- The value of a hexadecimal digit. -/
def hexValue (c : Char) : Option Nat :=
  if c.isDigit then some (c.toNat - '0'.toNat)
  else if 'a' ≤ c && c ≤ 'f' then some (c.toNat - 'a'.toNat + 10)
  else if 'A' ≤ c && c ≤ 'F' then some (c.toNat - 'A'.toNat + 10)
  else none

/-- A Unicode scalar value from exactly `n` hexadecimal digits. -/
def readScalar (n : Nat) (cs : Chars) : Except String (Char × Chars) := do
  let ds := cs.take n
  if ds.length < n then throw "short unicode escape"
  let v ← match ds.mapM hexValue with
    | some vs => pure (vs.foldl (fun a d => a * 16 + d) 0)
    | none => throw "bad unicode escape"
  if v ≥ 0x110000 || (0xD800 ≤ v && v ≤ 0xDFFF) then throw "bad unicode scalar"
  pure (Char.ofNat v, cs.drop n)

/-- The character an escape stands for. -/
def readEscape (cs : Chars) : Except String (Char × Chars) :=
  match cs with
  | 'b' :: rest => .ok ('\x08', rest)
  | 't' :: rest => .ok ('\t', rest)
  | 'n' :: rest => .ok ('\n', rest)
  | 'f' :: rest => .ok ('\x0c', rest)
  | 'r' :: rest => .ok ('\r', rest)
  | 'e' :: rest => .ok ('\x1b', rest)
  | '"' :: rest => .ok ('"', rest)
  | '\\' :: rest => .ok ('\\', rest)
  | 'x' :: rest => readScalar 2 rest
  | 'u' :: rest => readScalar 4 rest
  | 'U' :: rest => readScalar 8 rest
  | _ => .error "bad escape"

/-- A basic string after its opening quote. -/
def readBasic (fuel : Nat) (acc : List Char) (cs : Chars) : Except String (String × Chars) :=
  match fuel with
  | 0 => .error "string too long"
  | fuel + 1 =>
    match cs with
    | [] => .error "unterminated string"
    | '"' :: rest => .ok (String.ofList acc.reverse, rest)
    | '\\' :: rest => do
      let (c, rest) ← readEscape rest
      readBasic fuel (c :: acc) rest
    | c :: rest =>
      if isControl c then .error "control character in string"
      else readBasic fuel (c :: acc) rest

/-- A literal string after its opening apostrophe. -/
def readLiteral (cs : Chars) : Except String (String × Chars) :=
  let body := cs.takeWhile (fun c => c != apostrophe && c != '\n' && c != '\r')
  match cs.drop body.length with
  | c :: rest =>
    if c != apostrophe then .error "unterminated string"
    else if body.any isControl then .error "control character in string"
    else .ok (String.ofList body, rest)
  | [] => .error "unterminated string"

/-- Drops one line break right after the opening delimiter of a multi-line string. -/
def dropFirstBreak (cs : Chars) : Chars :=
  match cs with
  | '\n' :: rest => rest
  | '\r' :: '\n' :: rest => rest
  | _ => cs

/-- After a line-ending backslash: blanks and line breaks up to the next other character. -/
def skipContinuation (cs : Chars) : Chars :=
  cs.dropWhile (fun c => c = ' ' || c = '\t' || c = '\n' || c = '\r')

/-- A line-ending backslash: blanks, then a line break. -/
def isLineEndingBackslash (cs : Chars) : Bool :=
  match skipBlanks cs with
  | '\n' :: _ => true
  | '\r' :: '\n' :: _ => true
  | _ => false

/-- A multi-line basic string after its opening quotes. Up to two quotes may close it
    together with the three that end it. -/
def readMultiBasic (fuel : Nat) (acc : List Char) (cs : Chars) : Except String (String × Chars) :=
  match fuel with
  | 0 => .error "string too long"
  | fuel + 1 =>
    match cs with
    | '"' :: '"' :: '"' :: '"' :: '"' :: rest => .ok (String.ofList ('"' :: '"' :: acc).reverse, rest)
    | '"' :: '"' :: '"' :: '"' :: rest => .ok (String.ofList ('"' :: acc).reverse, rest)
    | '"' :: '"' :: '"' :: rest => .ok (String.ofList acc.reverse, rest)
    | '\\' :: rest =>
      if isLineEndingBackslash rest then readMultiBasic fuel acc (skipContinuation rest)
      else do
        let (c, rest) ← readEscape rest
        readMultiBasic fuel (c :: acc) rest
    | '\r' :: '\n' :: rest => readMultiBasic fuel ('\n' :: '\r' :: acc) rest
    | '\n' :: rest => readMultiBasic fuel ('\n' :: acc) rest
    | c :: rest =>
      if isControl c then .error "control character in string"
      else readMultiBasic fuel (c :: acc) rest
    | [] => .error "unterminated string"

/-- A multi-line literal string after its opening apostrophes. -/
def readMultiLiteral (fuel : Nat) (acc : List Char) (cs : Chars) : Except String (String × Chars) :=
  match fuel with
  | 0 => .error "string too long"
  | fuel + 1 =>
    if opensWith apostrophe 5 cs then
      .ok (String.ofList (apostrophe :: apostrophe :: acc).reverse, cs.drop 5)
    else if opensWith apostrophe 4 cs then
      .ok (String.ofList (apostrophe :: acc).reverse, cs.drop 4)
    else if opensWith apostrophe 3 cs then .ok (String.ofList acc.reverse, cs.drop 3)
    else
    match cs with
    | '\r' :: '\n' :: rest => readMultiLiteral fuel ('\n' :: '\r' :: acc) rest
    | '\n' :: rest => readMultiLiteral fuel ('\n' :: acc) rest
    | c :: rest =>
      if isControl c then .error "control character in string"
      else readMultiLiteral fuel (c :: acc) rest
    | [] => .error "unterminated string"

/-- Any of the four string forms, starting at its opening delimiter. -/
def readString (cs : Chars) : Option (Except String (String × Chars)) :=
  let fuel := cs.length + 1
  if opensWith apostrophe 3 cs then
    some (readMultiLiteral fuel [] (dropFirstBreak (cs.drop 3)))
  else if opensWith apostrophe 1 cs then some (readLiteral (cs.drop 1))
  else
  match cs with
  | '"' :: '"' :: '"' :: rest => some (readMultiBasic fuel [] (dropFirstBreak rest))
  | '"' :: rest => some (readBasic fuel [] rest)
  | _ => none

/-! ## Section 2: Keys -/

/-- Letters, digits, `_` and `-`, which bare keys are made of. -/
def isBareKeyChar (c : Char) : Bool :=
  c.isAlphanum || c = '_' || c = '-'

/-- One part of a key: bare, or a one-line quoted string. -/
def readKeyPart (cs : Chars) : Except String (String × Chars) :=
  if opensWith apostrophe 3 cs then .error "multi-line key"
  else if opensWith apostrophe 1 cs then readLiteral (cs.drop 1)
  else
  match cs with
  | '"' :: '"' :: '"' :: _ => .error "multi-line key"
  | '"' :: rest => readBasic (rest.length + 1) [] rest
  | _ =>
    let part := cs.takeWhile isBareKeyChar
    if part.isEmpty then .error "expected a key"
    else .ok (String.ofList part, cs.drop part.length)

/-- A dotted key: parts joined by dots, with blanks allowed around the dots. -/
def readKey (fuel : Nat) (cs : Chars) : Except String ((List String) × Chars) :=
  match fuel with
  | 0 => .error "key too long"
  | fuel + 1 => do
    let (part, rest) ← readKeyPart (skipBlanks cs)
    match skipBlanks rest with
    | '.' :: more => do
      let (parts, rest) ← readKey fuel more
      pure (part :: parts, rest)
    | rest => pure ([part], rest)

/-! ## Section 3: Numbers, booleans and date-times -/

/-- Characters that may make up a number, a boolean or a date-time. -/
def isAtomChar (c : Char) : Bool :=
  c.isAlphanum || c = '_' || c = '-' || c = '+' || c = '.' || c = ':'

/-- Digits in a base with single underscores between them; `none` if malformed. -/
def digitsIn (base : Nat) (cs : Chars) : Option Nat :=
  let rec go (acc : Nat) (prevDigit : Bool) : Chars → Option Nat
    | [] => if prevDigit then some acc else none
    | '_' :: rest => if prevDigit then go acc false rest else none
    | c :: rest =>
      match hexValue c with
      | some d => if d < base then go (acc * base + d) true rest else none
      | none => none
  go 0 false cs

/-- A decimal integer part: no leading zero unless it is the only digit. -/
def decimalDigits (cs : Chars) : Option Nat :=
  match cs with
  | '0' :: _ :: _ => none
  | _ => digitsIn 10 cs

/-- Splits an optional sign. -/
def splitSign (cs : Chars) : Bool × Chars :=
  match cs with
  | '-' :: rest => (true, rest)
  | '+' :: rest => (false, rest)
  | _ => (false, cs)

/-- The largest integer a document may hold. -/
def maxInteger : Int := Int.pow 2 63 - 1

/-- What an integer literal reads as: `none` when it is not one, an error when it is one
    but out of range. -/
def readInteger (cs : Chars) : Option (Except String Int) :=
  let unsigned (base : Nat) (ds : Chars) : Option (Except String Int) :=
    (digitsIn base ds).map fun n =>
      if (n : Int) ≤ maxInteger then .ok n else .error "integer out of range"
  match cs with
  | '0' :: 'x' :: rest => unsigned 16 rest
  | '0' :: 'o' :: rest => unsigned 8 rest
  | '0' :: 'b' :: rest => unsigned 2 rest
  | _ =>
    let (neg, body) := splitSign cs
    (decimalDigits body).map fun n =>
      let i : Int := if neg then -(n : Int) else n
      if -Int.pow 2 63 ≤ i && i ≤ maxInteger then .ok i else .error "integer out of range"

/-- Reads a float literal: integer part, then a fraction, an exponent or both. -/
def readFloat (cs : Chars) : Option FloatLiteral :=
  let (neg, body) := splitSign cs
  match body with
  | ['i', 'n', 'f'] => some (.infinite neg)
  | ['n', 'a', 'n'] => some .nan
  | _ =>
    let intPart := body.takeWhile (fun (c : Char) => c.isDigit || c = '_')
    let rest := body.drop intPart.length
    let (frac, rest) := match rest with
      | '.' :: more =>
        let f := more.takeWhile (fun (c : Char) => c.isDigit || c = '_')
        (some f, more.drop f.length)
      | _ => (none, rest)
    let expo : Option (Option Int) := match rest with
      | [] => some none
      | e :: more =>
        if e = 'e' || e = 'E' then
          let (eneg, edigits) := splitSign more
          (digitsIn 10 edigits).map fun n => some (if eneg then -(n : Int) else n)
        else none
    match decimalDigits intPart, expo with
    | some i, some e =>
      if frac.isNone && e.isNone then none
      else
        let fracDigits := (frac.getD []).filter (· != '_')
        let fracOk := match frac with
          | some f => (digitsIn 10 f).isSome
          | none => true
        if !fracOk then none
        else
          let m : Nat := fracDigits.foldl (fun (a : Nat) (c : Char) => a * 10 + (c.toNat - '0'.toNat)) i
          some (.finite neg m (e.getD 0 - fracDigits.length))
    | _, _ => none

/-- Whether the text is a date, `YYYY-MM-DD`, by its shape alone. -/
def isDateShape (cs : Chars) : Bool :=
  cs.length == 10 && (cs[4]? == some '-') && (cs[7]? == some '-') &&
    ((cs.take 4 ++ (cs.drop 5).take 2 ++ cs.drop 8).all Char.isDigit)

/-- A number, boolean or date-time, read from its run of atom characters. A date and a time
    may be joined by one space. -/
def readAtom (cs : Chars) : Except String (TomlValue × Chars) :=
  let atom := cs.takeWhile isAtomChar
  let rest := cs.drop atom.length
  let (atom, rest) :=
    match rest with
    | ' ' :: d :: more =>
      if isDateShape atom && d.isDigit then
        let tail := (d :: more).takeWhile isAtomChar
        (atom ++ [' '] ++ tail, (d :: more).drop tail.length)
      else (atom, rest)
    | _ => (atom, rest)
  if atom = ['t', 'r', 'u', 'e'] then .ok (.boolean true, rest)
  else if atom = ['f', 'a', 'l', 's', 'e'] then .ok (.boolean false, rest)
  else match readInteger atom with
    | some (.ok i) => .ok (.integer i, rest)
    | some (.error e) => .error e
    | none =>
      match readFloat atom with
      | some f =>
        if f.toBinary.isInfinite && !(f matches .infinite _) then .error "float out of range"
        else .ok (.float f, rest)
      | none =>
        match TomlDatetime.read? atom with
        | some d => .ok (.datetime d, rest)
        | none => .error "invalid value"

/-! ## Section 4: Tables -/

/-- The node at a key. -/
def lookup (entries : Entries) (k : String) : Option TomlNode :=
  (entries.find? (·.1 == k)).map (·.2)

/-- Replaces the node at a key, keeping its place. -/
def replace (entries : Entries) (k : String) (v : TomlNode) : Entries :=
  entries.map fun e => if e.1 == k then (k, v) else e

/-- Removes a key. -/
def remove (entries : Entries) (k : String) : Entries := entries.filter (·.1 != k)

/-- Walks `path` down from a table of kind `kind`, making missing tables implicit (and
    dotted when `dotted` is set), and applies `f` to the kind and entries of the table at
    its end. An array of tables is entered at its last table. A dotted walk may not enter a
    table that is not implicit, and marks the implicit tables it enters as dotted, so that no
    header may define them later; no walk may enter an inline table, and a value or a plain
    array stops every walk. -/
def descend {α : Type} (dotted : Bool) (kind : TableKind) (path : List String) (entries : Entries)
    (f : TableKind → Entries → Except String (Entries × α)) : Except String (Entries × α) :=
  match path with
  | [] => f kind entries
  | k :: more =>
    match lookup entries k with
    | none => do
      let made : TableKind := { implicit := true, dotted }
      let (inner, a) ← descend dotted made more [] f
      pure (entries ++ [(k, .table inner made)], a)
    | some (.table sub kind') =>
      if kind'.inline then .error ("cannot extend the inline table " ++ k)
      else if dotted && !kind'.implicit then .error ("duplicate key " ++ k)
      else do
        let kind' := if dotted then { kind' with dotted := true } else kind'
        let (inner, a) ← descend dotted kind' more sub f
        pure (replace entries k (.table inner kind'), a)
    | some (.array items true) =>
      match items.getLast? with
      | some (.table sub kind') => do
        let (inner, a) ← descend dotted kind' more sub f
        pure (replace entries k (.array (items.dropLast ++ [.table inner kind']) true), a)
      | _ => .error ("cannot extend " ++ k)
    | some _ => .error ("cannot extend " ++ k)

/-- Sets `path ++ [key]` to a value inside a table of kind `kind`. The table that receives
    the key must be dotted exactly when the path is not empty, and may not hold the key. -/
def setKey (kind : TableKind) (entries : Entries) (path : List String) (key : String)
    (v : TomlNode) : Except String Entries := do
  let (entries, _) ← descend (!path.isEmpty) kind path entries fun k es =>
    if k.dotted == path.isEmpty then .error ("duplicate key " ++ key)
    else if (lookup es key).isSome then .error ("duplicate key " ++ key)
    else .ok (es ++ [(key, v)], ())
  pure entries

/-! ## Section 5: Values -/

mutual

/-- Reads one value. -/
def readValue (fuel : Nat) (cs : Chars) : Except String (TomlNode × Chars) :=
  match fuel with
  | 0 => .error "value too deep"
  | fuel + 1 =>
    match cs with
    | '[' :: rest => readArrayItems fuel [] rest
    | '\x7b' :: rest => do
      let rest ← skipAll rest
      match rest with
      | '\x7d' :: after => pure (.table [] { inline := true }, after)
      | _ => readInlineEntries fuel [] rest
    | _ =>
      match readString cs with
      | some step => step.map fun (s, rest) => (.leaf (.text s), rest)
      | none => (readAtom cs).map fun (v, rest) => (.leaf v, rest)

/-- Array items after the opening bracket, or after a comma. -/
def readArrayItems (fuel : Nat) (acc : List TomlNode) (cs : Chars) :
    Except String (TomlNode × Chars) :=
  match fuel with
  | 0 => .error "array too long"
  | fuel + 1 => do
    let cs ← skipAll cs
    match cs with
    | ']' :: rest => pure (.array acc.reverse false, rest)
    | _ => do
      let (v, rest) ← readValue fuel cs
      let rest ← skipAll rest
      match rest with
      | ',' :: more => readArrayItems fuel (v :: acc) more
      | ']' :: more => pure (.array (v :: acc).reverse false, more)
      | _ => throw "expected , or ] in array"

/-- Inline table entries after the opening brace, or after a comma and what follows it. -/
def readInlineEntries (fuel : Nat) (acc : Entries) (cs : Chars) :
    Except String (TomlNode × Chars) :=
  match fuel with
  | 0 => .error "inline table too long"
  | fuel + 1 => do
    let (path, rest) ← readKey (cs.length + 1) cs
    let rest ← match skipBlanks rest with
      | '=' :: more => pure (skipBlanks more)
      | _ => throw "expected = in inline table"
    let (v, rest) ← readValue fuel rest
    let acc ← setKey { inline := true } acc path.dropLast (path.getLast?.getD "") v
    match ← skipAll rest with
    | ',' :: more =>
      match ← skipAll more with
      | '\x7d' :: after => pure (.table acc { inline := true }, after)
      | more => readInlineEntries fuel acc more
    | '\x7d' :: more => pure (.table acc { inline := true }, more)
    | _ => throw "expected , or \x7d in inline table"

end

/-! ## Section 6: Documents -/

/-- A table header: its path and whether it adds to an array of tables. -/
structure Header where
  path : List String
  isArray : Bool

/-- The state of reading a document: the tables finished so far, the table the open header
    fills, and that header (none before the first one). -/
structure DocState where
  root : Entries := []
  current : Entries := []
  header : Option Header := none

/-- The kind of a table a header defined. -/
def definedKind : TableKind := {}

/-- Puts the table the open header filled in its place. -/
def finishTable (st : DocState) : Except String DocState :=
  match st.header with
  | none => pure { st with root := st.current, current := [] }
  | some h => do
    let last := h.path.getLast?.getD ""
    let filled := TomlNode.table st.current definedKind
    let (root, _) ← descend false definedKind h.path.dropLast st.root fun _ es =>
      if h.isArray then
        match lookup es last with
        | none => .ok (es ++ [(last, .array [filled] true)], ())
        | some (.array items true) => .ok (replace es last (.array (items ++ [filled]) true), ())
        | some _ => .error ("duplicate key " ++ last)
      else if (lookup es last).isSome then .ok (replace es last filled, ())
      else .ok (es ++ [(last, filled)], ())
    pure { root, current := [], header := none }

/-- Opens a header. A plain header takes over the implicit table of its name, if a header
    made one, and may not name anything else that exists. -/
def startTable (st : DocState) (h : Header) : Except String DocState := do
  if h.isArray then pure { st with current := [], header := some h }
  else
    let last := h.path.getLast?.getD ""
    let (root, current) ← descend false definedKind h.path.dropLast st.root fun _ es =>
      match lookup es last with
      | none => .ok (es, [])
      | some (.table t k) =>
        if k.implicit && !k.dotted then .ok (remove es last, t)
        else .error ("duplicate key " ++ last)
      | some _ => .error ("duplicate key " ++ last)
    pure { root, current, header := some h }

/-- Reads a header's name and its closing bracket or brackets, up to the end of the line. -/
def readHeader (isArray : Bool) (cs : Chars) : Except String (Header × Chars) := do
  let (path, rest) ← readKey (cs.length + 1) cs
  let rest ← match skipBlanks rest, isArray with
    | ']' :: ']' :: more, true => pure more
    | ']' :: more, false => pure more
    | _, _ => throw "expected the end of the table name"
  let rest ← endLine rest
  pure ({ path, isArray }, rest)

/-- Reads the lines of a document. -/
def readLines (fuel : Nat) (st : DocState) (cs : Chars) : Except String DocState :=
  match fuel with
  | 0 => .error "document too long"
  | fuel + 1 => do
    let cs ← skipComment (skipBlanks cs)
    match cs with
    | [] => finishTable st
    | '\n' :: rest => readLines fuel st rest
    | '\r' :: '\n' :: rest => readLines fuel st rest
    | '[' :: '[' :: rest => do
      let (h, rest) ← readHeader true rest
      let st ← finishTable st
      readLines fuel (← startTable st h) rest
    | '[' :: rest => do
      let (h, rest) ← readHeader false rest
      let st ← finishTable st
      readLines fuel (← startTable st h) rest
    | _ => do
      let (path, rest) ← readKey (cs.length + 1) cs
      let rest ← match skipBlanks rest with
        | '=' :: more => pure (skipBlanks more)
        | _ => throw "expected = after key"
      let (v, rest) ← readValue (rest.length + 1) rest
      let rest ← endLine rest
      let current ← setKey definedKind st.current path.dropLast (path.getLast?.getD "") v
      readLines fuel { st with current } rest

/-- The value a node stands for. -/
def toValue : TomlNode → TomlValue
  | .leaf v => v
  | .array items _ => .array (items.attach.map fun ⟨x, _⟩ => toValue x)
  | .table entries _ => .table (entries.attach.map fun ⟨(k, x), _⟩ => (k, toValue x))
decreasing_by
  all_goals
    rename_i h
    have := List.sizeOf_lt_of_mem h
    simp_all
    omega

/-- Reads a whole settings document into its top-level table. -/
def read (text : String) : Except String (List (String × TomlValue)) := do
  let cs := match text.toList with
    | '\uFEFF' :: rest => rest
    | cs => cs
  let st ← readLines (cs.length + 1) {} cs
  pure (st.root.map fun (k, x) => (k, toValue x))

/-- The value at a key of a finished table. -/
def valueAt (entries : List (String × TomlValue)) (k : String) : Option TomlValue :=
  (entries.find? (·.1 == k)).map (·.2)

end Toml

end Encumbrance
