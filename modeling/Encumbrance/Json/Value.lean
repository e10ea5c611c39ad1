import Encumbrance.Float.Binary

/-!
# JSON values

Scripts and reports are JSON. A number is kept the way the reader classifies it: a whole
number written without point or exponent that fits in 64 bits (signed when negative,
unsigned otherwise) is an integer; any other number is a double-precision float (see
`Json/Number`). Object fields keep the order they were written in.

A lenient reading passes over parts of a document it cannot take in, such as a string with
a lone surrogate escape or containers nested too deep, and marks each such part
`unreadable`: a script may carry them in fields nobody reads, but no decoder accepts one.

Writing follows the usual conventions: compact text has no blanks at all; pretty text puts
every array item and object field on a line of its own, indented by two spaces per level,
with `": "` between a key and its value, and writes empty containers as `[]` and `{}`. In
strings, the quote, the backslash and the control characters are escaped, the latter as
`\b`, `\t`, `\n`, `\f`, `\r` or a four-digit lower-case `\u` escape; everything else is
written as it is.
-/

namespace Encumbrance

/-- A JSON value. -/
inductive JsonValue where
  | null
  | bool (b : Bool)
  | int (i : Int)
  | float (value : Binary64)
  | str (s : String)
  | arr (items : List JsonValue)
  | obj (fields : List (String × JsonValue))
  /-- A part of a document that a lenient reading passed over without taking it in. -/
  | unreadable
  deriving Repr, Inhabited

namespace JsonValue

/-- The value of a field; of a field written twice, the later one. -/
def field? (v : JsonValue) (key : String) : Option JsonValue :=
  match v with
  | obj fields => (fields.reverse.find? (·.1 == key)).map (·.2)
  | _ => none

/-- The text, if the value is a string. -/
def asStr? : JsonValue → Option String
  | str s => some s
  | _ => none

/-- The items, if the value is an array. -/
def asArr? : JsonValue → Option (List JsonValue)
  | arr xs => some xs
  | _ => none

/-- The fields, if the value is an object. -/
def asObj? : JsonValue → Option (List (String × JsonValue))
  | obj fs => some fs
  | _ => none

/-- The flag, if the value is a boolean. -/
def asBool? : JsonValue → Option Bool
  | bool b => some b
  | _ => none

/-- The number, if the value is an integer. -/
def asInt? : JsonValue → Option Int
  | int i => some i
  | _ => none

/-- The number, if the value is an integer that is not below zero. -/
def asNat? : JsonValue → Option Nat
  | int i => if 0 ≤ i then some i.toNat else none
  | _ => none

/-- Whether the value is `null`. -/
def isNull : JsonValue → Bool
  | null => true
  | _ => false

/-- Sets a field in a list of object fields: in its place when the key is already there,
    otherwise at the end. -/
def assignField (fs : List (String × JsonValue)) (k : String) (v : JsonValue) :
    List (String × JsonValue) :=
  if fs.any (·.1 == k) then fs.map fun p => if p.1 == k then (k, v) else p else fs ++ [(k, v)]

mutual

/-- Whether no part of the value is unreadable. -/
def readable : JsonValue → Bool
  | unreadable => false
  | arr xs => readableItems xs
  | obj fs => readableFields fs
  | _ => true

/-- Whether no part of any item is unreadable. -/
def readableItems : List JsonValue → Bool
  | [] => true
  | x :: rest => readable x && readableItems rest

/-- Whether no part of any field value is unreadable. -/
def readableFields : List (String × JsonValue) → Bool
  | [] => true
  | (_, v) :: rest => readable v && readableFields rest

end

/-! ## Section 1: Writing -/

/-- The lower-case hexadecimal digit of a number below 16. -/
def hexDigit (n : Nat) : Char :=
  if n < 10 then Char.ofNat (48 + n) else Char.ofNat (87 + n)

/-- A character as it is written inside a string. -/
def escapeChar (c : Char) : List Char :=
  if c = '"' then ['\\', '"']
  else if c = '\\' then ['\\', '\\']
  else if c = '\n' then ['\\', 'n']
  else if c = '\t' then ['\\', 't']
  else if c = '\r' then ['\\', 'r']
  else if c.toNat = 8 then ['\\', 'b']
  else if c.toNat = 12 then ['\\', 'f']
  else if c.toNat < 0x20 then
    ['\\', 'u', '0', '0', hexDigit (c.toNat / 16), hexDigit (c.toNat % 16)]
  else [c]

/-- A string literal. -/
def quote (s : String) : String :=
  String.ofList ('"' :: (s.toList.flatMap escapeChar ++ ['"']))

mutual

/-- Compact text. -/
def compact : JsonValue → String
  | null => "null"
  | bool b => if b then "true" else "false"
  | int i => toString i
  | float f => f.jsonText
  | str s => quote s
  | arr xs => "[" ++ compactItems xs ++ "]"
  | obj fs => "\x7b" ++ compactFields fs ++ "\x7d"
  | unreadable => "null"

/-- Compact text of array items, comma-separated. -/
def compactItems : List JsonValue → String
  | [] => ""
  | [x] => compact x
  | x :: rest => compact x ++ "," ++ compactItems rest

/-- Compact text of object fields, comma-separated. -/
def compactFields : List (String × JsonValue) → String
  | [] => ""
  | [(k, v)] => quote k ++ ":" ++ compact v
  | (k, v) :: rest => quote k ++ ":" ++ compact v ++ "," ++ compactFields rest

end

/-- Two spaces per level. -/
def indent (level : Nat) : String := String.ofList (List.replicate (2 * level) ' ')

mutual

/-- Pretty text at an indentation level. -/
def pretty (level : Nat) : JsonValue → String
  | arr [] => "[]"
  | obj [] => "\x7b\x7d"
  | arr xs => "[\n" ++ prettyItems (level + 1) xs ++ "\n" ++ indent level ++ "]"
  | obj fs => "\x7b\n" ++ prettyFields (level + 1) fs ++ "\n" ++ indent level ++ "\x7d"
  | v => compact v

/-- Pretty text of array items, one per line. -/
def prettyItems (level : Nat) : List JsonValue → String
  | [] => ""
  | [x] => indent level ++ pretty level x
  | x :: rest => indent level ++ pretty level x ++ ",\n" ++ prettyItems level rest

/-- Pretty text of object fields, one per line. -/
def prettyFields (level : Nat) : List (String × JsonValue) → String
  | [] => ""
  | [(k, v)] => indent level ++ quote k ++ ": " ++ pretty level v
  | (k, v) :: rest => indent level ++ quote k ++ ": " ++ pretty level v ++ ",\n" ++ prettyFields level rest

end

end JsonValue

end Encumbrance
