import Encumbrance.Config.Basic
import Encumbrance.Config.Layers

/-!
# Loading settings

Settings come in layers (see `Config/Layers`): settings files, read in order, then
environment variables named `LEDGERLOCK__FIELD` or `LEDGERLOCK__TABLE__FIELD`.

Fields are then taken from the merged tree, leniently, the way settings files are usually
meant:

* a flag may be a boolean, a number (nonzero is true), or text: `1`, `true`, `on` or `yes`,
  and `0`, `false`, `off` or `no`, in any case;
* a count may be a nonnegative integer, a boolean, a float rounded half away from zero and
  held to the 64-bit range, or text: `true`, `on` or `yes` for 1, `false`, `off` or `no` for
  0, or the digits of an unsigned 64-bit number;
* a text may be given as a number or a flag, written out;
* an amount is decimal text, a whole number, or a float taken through its text;
* the currency is its code, or a table whose only key is the code;
* the enforced dimensions are a table of two flags, or an array whose first two items are
  the flags, in the order project, branch.

A missing field takes its default, and keys nobody asked for are ignored. A field that
cannot be taken makes the whole load fail, as does a file that is not TOML; after loading,
the checks of `BudgetConfig.validate` run. A layer whose index stops the process stops the
load with it.
-/

namespace Encumbrance

namespace Setting

/-- Lower-cases ASCII letters; the words compared against are ASCII. -/
def lowerAscii (s : String) : String := String.ofList (s.toList.map Char.toLower)

/-- A flag: a boolean, a nonzero number, or one of the words for yes and no. -/
def asBool : SettingValue → Option Bool
  | .boolean b => some b
  | .integer i => some (i != 0)
  | .float f => some (!f.isZero)
  | .text s =>
    let w := lowerAscii s
    if w == "1" || w == "true" || w == "on" || w == "yes" then some true
    else if w == "0" || w == "false" || w == "off" || w == "no" then some false
    else none
  | _ => none

/-- Text: strings as they are, numbers and flags written out. -/
def asText : SettingValue → Option String
  | .text s => some s
  | .boolean b => some (if b then "true" else "false")
  | .integer i => some (toString i)
  | .float f => some f.toText
  | _ => none

/-- Reads the digits of an unsigned 64-bit number, with an optional `+`. -/
def readUnsigned (s : String) : Option Nat :=
  let body := match s.toList with
    | '+' :: rest => rest
    | cs => cs
  if body.isEmpty || !body.all Char.isDigit then none
  else
    let n := body.foldl (fun a c => a * 10 + (c.toNat - '0'.toNat)) 0
    if n < Nat.pow 2 64 then some n else none

/-- A count: a nonnegative integer below `2^64`, a float held to that range, a flag, or text
    naming one of these. -/
def asCount : SettingValue → Option Nat
  | .integer i => if 0 ≤ i then some i.toNat else none
  | .boolean b => some (if b then 1 else 0)
  | .float f => some f.toCount
  | .text s =>
    let w := lowerAscii s
    if w == "true" || w == "on" || w == "yes" then some 1
    else if w == "false" || w == "off" || w == "no" then some 0
    else readUnsigned s
  | _ => none

/-- An amount: text read as a decimal, a whole number, or a float through its text. -/
def asDecimal : SettingValue → Option Decimal
  | .text s => Decimal.read s
  | .integer i =>
    if i < 0 then (Decimal.ofNat i.natAbs).negate |> some else some (Decimal.ofNat i.toNat)
  | .float f => Decimal.readPlain f.toText
  | _ => none

/-- A currency: exactly one of the codes, or a table whose only key is one. -/
def asCurrency : SettingValue → Option Currency
  | .text s => Currency.ofCode? s
  | .table [(k, _)] => Currency.ofCode? k
  | _ => none

/-- An optional text: null is absent. -/
def asOptionalText : SettingValue → Option (Option String)
  | .null => some none
  | v => (asText v).map some

/-- The enforced dimensions: a table of flags, or an array of them in order. -/
def asEnforceScope : SettingValue → Option EnforceScope
  | .table es =>
    let flag (k : String) : Option Bool :=
      match SettingValue.lookup es k with
      | none => some false
      | some v => asBool v
    do pure { project := ← flag "project", branch := ← flag "branch" }
  | .array size items =>
    let flag (n : Nat) : Option Bool :=
      if size ≤ n then some false else asBool (SettingValue.itemAt items n)
    do pure { project := ← flag 0, branch := ← flag 1 }
  | _ => none

end Setting

namespace BudgetConfig

open Setting in
/-- Takes the fields from the settings tree, with defaults for missing ones. -/
def ofSettings (root : SettingValue) : Except ConfigError BudgetConfig := do
  let es := root.entriesOrEmpty
  let d : BudgetConfig := {}
  let field {α : Type} (key : String) (get : SettingValue → Option α) (dflt : α) :
      Except ConfigError α :=
    match SettingValue.lookup es key with
    | none => pure dflt
    | some v =>
      match get v with
      | some a => pure a
      | none => throw (.load ("invalid type for key " ++ key))
  pure {
    enableBudgetLock := ← field "enable_budget_lock" asBool d.enableBudgetLock
    lockOnState := ← field "lock_on_state" asText d.lockOnState
    enforceScope := ← field "enforce_scope" asEnforceScope d.enforceScope
    controlByAccount := ← field "control_by_account" asBool d.controlByAccount
    overrunRole := ← field "overrun_role" asText d.overrunRole
    roundingTolerance := ← field "rounding_tolerance" asDecimal d.roundingTolerance
    currency := ← field "currency" asCurrency d.currency
    defaultFiscalPeriod := ← field "default_fiscal_period" asOptionalText none
    lockTimeoutMs := ← field "lock_timeout_ms" asCount d.lockTimeoutMs
    actualsCacheTtlSecs := ← field "actuals_cache_ttl_secs" asCount d.actualsCacheTtlSecs
    dispatchWorkers := ← field "dispatch_workers" asCount d.dispatchWorkers }

/-- The layer a settings file gives: its top-level keys. -/
def fileLayer (text : String) : Except ConfigError (List (String × SettingValue)) :=
  match Toml.read text with
  | .ok t => .ok (t.map fun (k, v) => (k, SettingValue.ofToml v))
  | .error e => .error (.load e)

/-- Applies layers to an empty tree; a layer may stop the process. -/
def gather (layers : List (List (String × SettingValue))) : Except LayerCrash SettingValue :=
  layers.foldlM SettingValue.applyLayer (.table [])

/-- Reads one settings file, takes its fields and checks them. The outer error is a layer
    that stops the process. -/
def ofToml (text : String) : Except LayerCrash (Except ConfigError BudgetConfig) :=
  match fileLayer text with
  | .error e => .ok (.error e)
  | .ok layer =>
    (gather [layer]).map fun root => do
      let c ← ofSettings root
      c.validate
      pure c

/-- Loads settings from files, in order, and then the environment, and checks them. The
    outer error is a layer that stops the process. -/
def load (files : List String) (env : List (String × String)) :
    Except LayerCrash (Except ConfigError BudgetConfig) :=
  match files.mapM fileLayer with
  | .error e => .ok (.error e)
  | .ok layers =>
    (gather (layers ++ [Environment.layer env])).map fun root => do
      let c ← ofSettings root
      c.validate
      pure c

end BudgetConfig

end Encumbrance
