import Encumbrance.Config.Toml

/-!
# Layered settings

Settings are gathered into one tree from layers applied in order: settings files first,
then environment variables. Each layer is a set of keys with values, and each key is a
**path**: a name, followed by any number of `.name` steps into tables and `[index]` steps
into arrays, where a name is made of ASCII letters, digits, `_` and `-`, and an index is a
whole number with an optional minus sign, with blanks allowed around it. A key that is not
a path is taken as one name, as it is.

Setting a path walks the tree from its root, making what is missing: a missing step is made
null, a step that must be a table but is not becomes an empty table, and one that must be an
array but is not becomes an empty array. An index past the end of an array pads it with
nulls; a negative index counts from the end, and one reaching before the start pads the
front. Setting a table merges it into what is there, key by key and all the way down;
setting anything else replaces what is there.

A settings file gives its top-level keys; a date-time in it becomes its text. An
environment variable `LEDGERLOCK__NAME` gives the key `NAME`, lower-cased, with each `__`
read as a `.`; its value is a boolean if it is `true` or `false` in any case, else a whole
number if it reads as one in 64 signed bits, else a float if it reads as one, else text.

An array too large to allocate stops the process: applying a layer then has no result.
-/

namespace Encumbrance

/-- A value in the settings tree. An array is kept as its length and the items that were set,
    by position; every other position holds null, so padding an array far out costs nothing. -/
inductive SettingValue where
  | null
  | boolean (b : Bool)
  | integer (i : Int)
  | float (f : FloatLiteral)
  | text (s : String)
  | array (size : Nat) (items : List (Nat × SettingValue))
  | table (entries : List (String × SettingValue))
  deriving Repr, Inhabited

/-- A key as a path into the settings tree. -/
inductive KeyPath where
  | name (n : String)
  | child (parent : KeyPath) (n : String)
  | index (parent : KeyPath) (i : Int)
  deriving Repr, Inhabited

/-- Why applying a layer stopped the process. -/
structure LayerCrash where
  message : String
  deriving Repr

namespace KeyPath

/-- Characters of a name. -/
def isNameChar (c : Char) : Bool :=
  ('a' ≤ c && c ≤ 'z') || ('A' ≤ c && c ≤ 'Z') || c.isDigit || c = '_' || c = '-'

/-- A name: at least one name character. -/
def readName (cs : List Char) : Option (String × List Char) :=
  let n := cs.takeWhile isNameChar
  if n.isEmpty then none else some (String.ofList n, cs.drop n.length)

/-- An index between brackets, after the opening one: blanks, an optional minus sign, digits
    that fit in 64 signed bits, blanks, and the closing bracket. -/
def readIndex (cs : List Char) : Option (Int × List Char) :=
  let cs := cs.dropWhile fun c => c = ' ' || c = '\t'
  let (neg, cs) := match cs with
    | '-' :: rest => (true, rest)
    | _ => (false, cs)
  let ds := cs.takeWhile Char.isDigit
  if ds.isEmpty then none
  else
    let n : Nat := ds.foldl (fun a c => a * 10 + (c.toNat - '0'.toNat)) 0
    let i : Int := if neg then -(n : Int) else n
    if i < -Int.pow 2 63 || Int.pow 2 63 ≤ i then none
    else
      match (cs.drop ds.length).dropWhile fun c => c = ' ' || c = '\t' with
      | ']' :: rest => some (i, rest)
      | _ => none

/-- The steps after the first name, until the text ends. -/
def readSteps (fuel : Nat) (p : KeyPath) (cs : List Char) : Option KeyPath :=
  match fuel, cs with
  | _, [] => some p
  | 0, _ => none
  | fuel + 1, '.' :: rest => do
    let (n, rest) ← readName rest
    readSteps fuel (.child p n) rest
  | fuel + 1, '[' :: rest => do
    let (i, rest) ← readIndex rest
    readSteps fuel (.index p i) rest
  | _, _ => none

/-- Reads a whole key as a path. -/
def read? (key : String) : Option KeyPath := do
  let cs := key.toList
  let (n, rest) ← readName cs
  readSteps (rest.length + 1) (.name n) rest

/-- A key as a path; a key that is not one is a single name. -/
def ofKey (key : String) : KeyPath := (read? key).getD (.name key)

/-- Whether the path is a single name, with no steps after it. -/
def isName : KeyPath → Bool
  | .name _ => true
  | _ => false

end KeyPath

namespace SettingValue

/-- The value at a key of a list of entries. -/
def lookup {κ : Type} [BEq κ] (entries : List (κ × SettingValue)) (k : κ) : Option SettingValue :=
  (entries.find? (·.1 == k)).map (·.2)

/-- Sets a key of a list of entries, in place when it is there. -/
def assign {κ : Type} [BEq κ] (entries : List (κ × SettingValue)) (k : κ) (v : SettingValue) :
    List (κ × SettingValue) :=
  if entries.any (·.1 == k) then entries.map fun e => if e.1 == k then (k, v) else e
  else entries ++ [(k, v)]

/-- An array of the given items, in order. -/
def arrayOf (xs : List SettingValue) : SettingValue :=
  array xs.length ((List.range xs.length).zip xs)

/-- Item `n` of an array's set items; a position nothing was set at holds null. -/
def itemAt (items : List (Nat × SettingValue)) (n : Nat) : SettingValue :=
  (lookup items n).getD null

/-- The entries, when the value is a table; anything else counts as an empty table. -/
def entriesOrEmpty : SettingValue → List (String × SettingValue)
  | table es => es
  | _ => []

/-- The length and set items, when the value is an array; anything else counts as an empty
    array. -/
def itemsOrEmpty : SettingValue → Nat × List (Nat × SettingValue)
  | array n xs => (n, xs)
  | _ => (0, [])

/-- The bytes one item of an array takes in memory. -/
def itemBytes : Nat := 96

/-- The most bytes one array may take: the largest signed 64-bit number. -/
def maxArrayBytes : Nat := Nat.pow 2 63 - 1

/-- Makes an array of `size` items long enough for index `i`, and says where the index lands.
    A nonnegative index past the end pads the array with nulls up to it. A negative index
    `-k` counts from the end; when `k` is more than the length, `k - length` nulls go in
    front, so that the array has `k` items and the index lands on the first. An array too
    large to allocate stops the process. -/
def reach (size : Nat) (items : List (Nat × SettingValue)) (i : Int) :
    Except LayerCrash (Nat × List (Nat × SettingValue) × Nat) :=
  let (size, items, spot) :=
    if 0 ≤ i then (max size (i.toNat + 1), items, i.toNat)
    else if i.natAbs ≤ size then (size, items, size - i.natAbs)
    else
      let gap := i.natAbs - size
      (i.natAbs, items.map (fun e => (e.1 + gap, e.2)), 0)
  if maxArrayBytes < size * itemBytes then .error ⟨"capacity overflow"⟩
  else .ok (size, items, spot)

/-- Merges `v` into `old`: a table goes in key by key, all the way down, over what of `old` is
    a table (anything else counts as an empty one); any other value replaces `old`. -/
def merge (old v : SettingValue) : SettingValue :=
  match v with
  | table incoming =>
    table (incoming.attach.foldl
      (fun es ⟨(k, x), _⟩ => assign es k (merge ((lookup es k).getD null) x)) old.entriesOrEmpty)
  | _ => v
termination_by v
decreasing_by
  rename_i h
  have := List.sizeOf_lt_of_mem h
  simp_all
  omega

/-- Applies `g` to the entry `n` of a value taken as a table, made null when missing. -/
def atName (v : SettingValue) (n : String) (g : SettingValue → Except LayerCrash SettingValue) :
    Except LayerCrash SettingValue := do
  let es := v.entriesOrEmpty
  pure (table (assign es n (← g ((lookup es n).getD null))))

/-- Applies `g` to the item at index `i` of a value taken as an array, reached by `reach`. -/
def atIndex (v : SettingValue) (i : Int) (g : SettingValue → Except LayerCrash SettingValue) :
    Except LayerCrash SettingValue := do
  let (size, items) := v.itemsOrEmpty
  let (size, items, spot) ← reach size items i
  pure (array size (assign items spot (← g (itemAt items spot))))

/-- Applies `g` to the value at a path, making the way there, from the root outwards. -/
def modify (p : KeyPath) (root : SettingValue) (g : SettingValue → Except LayerCrash SettingValue) :
    Except LayerCrash SettingValue :=
  match p with
  | .name n => atName root n g
  | .child parent n => modify parent root fun v => atName v n g
  | .index parent i => modify parent root fun v => atIndex v i g

/-- Sets the value at a path: merged into what is there when it is a table, else in its
    place. -/
def setPath (p : KeyPath) (root : SettingValue) (v : SettingValue) : Except LayerCrash SettingValue :=
  modify p root fun old => pure (merge old v)

/-- Applies a layer's keys. A layer promises no order among its keys; the keys that walk into
    a setting go first, in order, and the keys that name a setting whole go last, in order, so
    that a whole value given beside a partial one is laid over it. -/
def applyLayer (root : SettingValue) (layer : List (String × SettingValue)) :
    Except LayerCrash SettingValue :=
  let paths := layer.map fun (k, v) => (KeyPath.ofKey k, v)
  let (whole, walked) := paths.partition fun e => e.1.isName
  (walked ++ whole).foldlM (fun r e => setPath e.1 r e.2) root

/-- A settings file value as a settings value; a date-time becomes its text. -/
def ofToml : TomlValue → SettingValue
  | .text s => text s
  | .integer i => integer i
  | .float f => float f
  | .boolean b => boolean b
  | .datetime d => text d.toText
  | .array items => arrayOf (items.attach.map fun ⟨x, _⟩ => ofToml x)
  | .table entries => table (entries.attach.map fun ⟨(k, x), _⟩ => (k, ofToml x))
decreasing_by
  all_goals
    rename_i h
    have := List.sizeOf_lt_of_mem h
    simp_all
    omega

end SettingValue

namespace Environment

/-- The prefix of the variables that hold settings, lower-cased. -/
def prefixLower : String := "ledgerlock__"

/-- Lower-cases a variable name: ASCII capitals, the Kelvin sign (to `k`) and the capital I
    with a dot above (to `i` and a combining dot). Other characters only ever make names no
    setting has, and are kept. -/
def lowerName (s : String) : String :=
  String.join (s.toList.map fun c =>
    if 'A' ≤ c && c ≤ 'Z' then String.singleton (Char.ofNat (c.toNat + 32))
    else if c.toNat = 0x212A then "k"
    else if c.toNat = 0x130 then String.ofList ['i', Char.ofNat 0x307]
    else String.singleton c)

/-- Reads a signed whole number within 64 bits: an optional sign and digits. -/
def readInt64 (s : String) : Option Int :=
  let (neg, body) := match s.toList with
    | '-' :: rest => (true, rest)
    | '+' :: rest => (false, rest)
    | cs => (false, cs)
  if body.isEmpty || !body.all Char.isDigit then none
  else
    let n : Nat := body.foldl (fun a c => a * 10 + (c.toNat - '0'.toNat)) 0
    let i : Int := if neg then -(n : Int) else n
    if -Int.pow 2 63 ≤ i && i < Int.pow 2 63 then some i else none

/-- The value of a variable: a boolean, a whole number, a float, or text. -/
def valueOf (value : String) : SettingValue :=
  let w := lowerName value
  if w == "true" then .boolean true
  else if w == "false" then .boolean false
  else match readInt64 value with
    | some i => .integer i
    | none =>
      match FloatLiteral.read value with
      | some f => .float f
      | none => .text value

/-- The key and value a variable gives, if it is one of ours. -/
def entry (name value : String) : Option (String × SettingValue) :=
  let key := lowerName name
  if !key.startsWith prefixLower then none
  else
    let key := String.ofList (key.toList.drop prefixLower.length)
    some (key.replace "__" ".", valueOf value)

/-- The layer the environment gives. -/
def layer (env : List (String × String)) : List (String × SettingValue) :=
  env.filterMap fun (n, v) => entry n v

end Environment

end Encumbrance
