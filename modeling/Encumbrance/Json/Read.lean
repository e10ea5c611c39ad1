import Encumbrance.Json.Value
import Encumbrance.Json.Number

/-!
# Reading JSON

Reads one JSON text (RFC 8259) into a `JsonValue`: a single value with white space (space,
tab, line feed, carriage return) around it and nothing else. Strings may not hold raw
control characters, and their escapes are the standard ones. Numbers have no leading zeros,
no leading plus and no bare point, and are read as `Json/Number` describes.

A request is read strictly. A `\u` escape of a surrogate must pair a leading with a
trailing one, and the pair is joined into one character; arrays and objects nest at most
127 deep; a number out of range is refused; and of a key written twice in one object, the
later value counts.

A script is read leniently: what a strict reading refuses beyond the grammar (a lone
surrogate in a string or a key, nesting deeper than 127, a number out of range) becomes
`unreadable` in place, and every key written twice is kept. A script's decoder then decides
which of that matters: fields nobody reads may carry anything grammatical.
-/

namespace Encumbrance

namespace Json

/-- How deep arrays and objects may nest. -/
def maxDepth : Nat := 127

/-- Drops white space. -/
def skipWs (cs : Chars) : Chars :=
  cs.dropWhile fun c => c = ' ' || c = '\t' || c = '\n' || c = '\r'

/-- The value of a hexadecimal digit. -/
def hexValue (c : Char) : Option Nat :=
  if c.isDigit then some (c.toNat - 48)
  else if 'a' ≤ c && c ≤ 'f' then some (c.toNat - 87)
  else if 'A' ≤ c && c ≤ 'F' then some (c.toNat - 55)
  else none

/-- Reads the four hexadecimal digits of a `\u` escape. -/
def readHex4 (cs : Chars) : Except String (Nat × Chars) :=
  match cs with
  | a :: b :: c :: d :: rest =>
    match hexValue a, hexValue b, hexValue c, hexValue d with
    | some w, some x, some y, some z => .ok (((w * 16 + x) * 16 + y) * 16 + z, rest)
    | _, _, _, _ => .error "invalid escape"
  | _ => .error "EOF while parsing a string"

/-- Reads what follows `\u`: a character, or `none` for a surrogate that is not the leading
    half of a pair. A pair is joined into one character. Only a strict reading refuses an
    unpaired surrogate; a lenient one goes on after its four digits. -/
def readUnicode (lenient : Bool) (cs : Chars) : Except String (Option Char × Chars) := do
  let (n, rest) ← readHex4 cs
  let lone : Except String (Option Char × Chars) :=
    if lenient then pure (none, rest) else throw "lone leading surrogate in hex escape"
  if 0xD800 ≤ n && n < 0xDC00 then
    match rest with
    | '\\' :: 'u' :: more =>
      let (m, rest') ← readHex4 more
      if 0xDC00 ≤ m && m < 0xE000 then
        pure (some (Char.ofNat (0x10000 + (n - 0xD800) * 0x400 + (m - 0xDC00))), rest')
      else lone
    | _ => lone
  else if 0xDC00 ≤ n && n < 0xE000 then lone
  else pure (some (Char.ofNat n), rest)

/-- Reads the rest of a string after its opening quote: the string, or `none` when a
    lenient reading met an unpaired surrogate in it. -/
def readString (lenient : Bool) (fuel : Nat) (acc : List Char) (whole : Bool) (cs : Chars) :
    Except String (Option String × Chars) :=
  match fuel with
  | 0 => .error "EOF while parsing a string"
  | fuel + 1 =>
    match cs with
    | [] => .error "EOF while parsing a string"
    | '"' :: rest => .ok (if whole then some (String.ofList acc.reverse) else none, rest)
    | '\\' :: rest =>
      match rest with
      | '"' :: more => readString lenient fuel ('"' :: acc) whole more
      | '\\' :: more => readString lenient fuel ('\\' :: acc) whole more
      | '/' :: more => readString lenient fuel ('/' :: acc) whole more
      | 'b' :: more => readString lenient fuel (Char.ofNat 8 :: acc) whole more
      | 'f' :: more => readString lenient fuel (Char.ofNat 12 :: acc) whole more
      | 'n' :: more => readString lenient fuel ('\n' :: acc) whole more
      | 'r' :: more => readString lenient fuel ('\r' :: acc) whole more
      | 't' :: more => readString lenient fuel ('\t' :: acc) whole more
      | 'u' :: more => do
        match ← readUnicode lenient more with
        | (some c, after) => readString lenient fuel (c :: acc) whole after
        | (none, after) => readString lenient fuel acc false after
      | _ => .error "invalid escape"
    | c :: rest =>
      if c.toNat < 0x20 then .error "control character found while parsing a string"
      else readString lenient fuel (c :: acc) whole rest

/-- Reads a number, as a value; out of range it is refused, or unreadable when lenient. -/
def readNumberValue (lenient : Bool) (cs : Chars) : Except String (JsonValue × Chars) := do
  match ← readNumber cs with
  | (.whole i, rest) => pure (.int i, rest)
  | (.float f, rest) => pure (.float f, rest)
  | (.outOfRange, rest) => if lenient then pure (.unreadable, rest) else throw "number out of range"

/-- Reads a keyword such as `true`. -/
def readWord (word : String) (v : JsonValue) (cs : Chars) : Except String (JsonValue × Chars) :=
  let w := word.toList
  if cs.take w.length == w then .ok (v, cs.drop w.length) else .error "expected value"

/-- An array or object read at depth `depth`: too deep is refused, or unreadable when
    lenient. -/
def nested (lenient : Bool) (depth : Nat) (v : JsonValue) : JsonValue :=
  if lenient && maxDepth ≤ depth then .unreadable else v

mutual

/-- Reads one value at nesting depth `depth`. -/
def readValue (lenient : Bool) (fuel depth : Nat) (cs : Chars) : Except String (JsonValue × Chars) :=
  match fuel with
  | 0 => .error "EOF while parsing a value"
  | fuel + 1 =>
    match skipWs cs with
    | [] => .error "EOF while parsing a value"
    | 'n' :: _ => readWord "null" .null (skipWs cs)
    | 't' :: _ => readWord "true" (.bool true) (skipWs cs)
    | 'f' :: _ => readWord "false" (.bool false) (skipWs cs)
    | '"' :: rest => do
      let (s, more) ← readString lenient (rest.length + 1) [] true rest
      pure (s.elim .unreadable JsonValue.str, more)
    | '[' :: rest =>
      if !lenient && maxDepth ≤ depth then .error "recursion limit exceeded"
      else
        match skipWs rest with
        | ']' :: more => .ok (nested lenient depth (.arr []), more)
        | _ => do
          let (v, more) ← readItems lenient fuel (depth + 1) [] rest
          pure (nested lenient depth v, more)
    | '\x7b' :: rest =>
      if !lenient && maxDepth ≤ depth then .error "recursion limit exceeded"
      else
        match skipWs rest with
        | '\x7d' :: more => .ok (nested lenient depth (.obj []), more)
        | _ => do
          let (v, more) ← readFields lenient fuel (depth + 1) [] true rest
          pure (nested lenient depth v, more)
    | c :: _ =>
      if c = '-' || c.isDigit then readNumberValue lenient (skipWs cs) else .error "expected value"

/-- Reads array items after `[` or a comma, up to the closing bracket. -/
def readItems (lenient : Bool) (fuel depth : Nat) (acc : List JsonValue) (cs : Chars) :
    Except String (JsonValue × Chars) :=
  match fuel with
  | 0 => .error "EOF while parsing a list"
  | fuel + 1 => do
    let (v, rest) ← readValue lenient fuel depth cs
    match skipWs rest with
    | ',' :: more => readItems lenient fuel depth (v :: acc) more
    | ']' :: more => pure (.arr (v :: acc).reverse, more)
    | [] => throw "EOF while parsing a list"
    | _ => throw "expected , or ]"

/-- Reads object fields after the opening brace or a comma, up to the closing brace. A
    strict reading keeps one field per key, the later value; a lenient one keeps them all,
    and an object with an unreadable key is unreadable. -/
def readFields (lenient : Bool) (fuel depth : Nat) (acc : List (String × JsonValue))
    (keysWhole : Bool) (cs : Chars) : Except String (JsonValue × Chars) :=
  match fuel with
  | 0 => .error "EOF while parsing an object"
  | fuel + 1 =>
    match skipWs cs with
    | '"' :: rest => do
      let (k, afterKey) ← readString lenient (rest.length + 1) [] true rest
      let key := k.getD ""
      let keysWhole := keysWhole && k.isSome
      match skipWs afterKey with
      | ':' :: afterColon => do
        let (v, afterValue) ← readValue lenient fuel depth afterColon
        let acc := if lenient then acc ++ [(key, v)] else JsonValue.assignField acc key v
        match skipWs afterValue with
        | ',' :: more => readFields lenient fuel depth acc keysWhole more
        | '\x7d' :: more => pure (if keysWhole then .obj acc else .unreadable, more)
        | [] => throw "EOF while parsing an object"
        | _ => throw "expected , or \x7d"
      | [] => throw "EOF while parsing an object"
      | _ => throw "expected :"
    | [] => .error "EOF while parsing an object"
    | _ => .error "key must be a string"

end

/-- Reads a whole JSON text, strictly or leniently. -/
def readWith (lenient : Bool) (text : String) : Except String JsonValue := do
  let cs := text.toList
  let (v, rest) ← readValue lenient (cs.length + 1) 0 cs
  if (skipWs rest).isEmpty then pure v else throw "trailing characters"

/-- Reads a whole JSON text strictly, as requests are read. -/
def read (text : String) : Except String JsonValue := readWith false text

/-- Reads a whole JSON text leniently, as scripts are read. -/
def readLenient (text : String) : Except String JsonValue := readWith true text

end Json

end Encumbrance
