import Encumbrance.Json.Read
import Encumbrance.Decimal.Parse
import Encumbrance.Calendar.Fiscal
import Encumbrance.Config.Basic
import Encumbrance.Ledger.Entry
import Encumbrance.Allocation.Slice

/-!
# Reading domain values from JSON

Documents, keys, allocations and settings arrive as JSON with snake-case field names.
Decoding is strict about types and lenient about presence:

* a text field must hold a string, a flag a boolean, a count a whole number from 0 up;
* an amount is a string read as a decimal (plain or scientific), a whole number, or a float
  read as the plain text of its shortest decimal;
* a date is a `YYYY-MM-DD` string;
* a name from a fixed set (a status, a currency, an entry type) is a string, or an object
  with that name as its only key and `null` as its value;
* fields nobody asked for are ignored.

A record (a key, a document, a line) is either an object, its fields by name, or an array,
its fields by position in the order the record declares them:

* in an object, an optional field may be missing or `null`, and a field with a default may
  be missing, but `null` is not a value for it; a field named twice is an error;
* in an array, an item may be left off the end only where the field has a default (an
  optional field without one must still be given, as `null`), and an array longer than the
  record is an error.

Each decoder gives `none` when the value does not have the shape it needs.
-/

namespace Encumbrance

namespace Decode

/-- A string. -/
def text : JsonValue → Option String := JsonValue.asStr?

/-- A boolean. -/
def flag : JsonValue → Option Bool := JsonValue.asBool?

/-- A whole number from 0 up to `2^64 - 1`. -/
def count : JsonValue → Option Nat
  | .int i => if 0 ≤ i && i < Int.pow 2 64 then some i.toNat else none
  | _ => none

/-- An amount: decimal text, a whole number that fits, or a float, taken as the text of the
    float it reads as. -/
def amount : JsonValue → Option Decimal
  | .str s => Decimal.read s
  | .int i => Decimal.make? (i < 0) i.natAbs 0
  | .float f => Decimal.readPlain f.text
  | _ => none

/-- A calendar date. -/
def date : JsonValue → Option Date
  | .str s => Date.read s
  | _ => none

/-- A list, every item decoded. -/
def list {α : Type} (item : JsonValue → Option α) : JsonValue → Option (List α)
  | .arr xs => xs.mapM item
  | _ => none

/-- A name from a fixed set, looked up by `byName`: a string, or an object whose only key is
    the name and whose value is `null`. -/
def named {α : Type} (byName : String → Option α) : JsonValue → Option α
  | .str s => byName s
  | .obj [(k, .null)] => byName k
  | _ => none

/-- A required field of an object. -/
def req {α : Type} (o : JsonValue) (key : String) (f : JsonValue → Option α) : Option α :=
  (o.field? key).bind f

/-- An optional field of an object: missing and `null` both mean absent. -/
def opt {α : Type} (o : JsonValue) (key : String) (f : JsonValue → Option α) : Option (Option α) :=
  match o.field? key with
  | none => some none
  | some .null => some none
  | some v => (f v).map some

/-- A field of an object with a default for when it is missing. -/
def withDefault {α : Type} (o : JsonValue) (key : String) (f : JsonValue → Option α) (d : α) :
    Option α :=
  match o.field? key with
  | none => some d
  | some v => f v

/-- The value must be an object. -/
def object (v : JsonValue) : Option JsonValue :=
  match v with
  | .obj _ => some v
  | _ => none

/-- The fields of a record: by name from an object, or by position from an array, where
    `names` lists the record's fields in order. -/
inductive Fields where
  | byName (entries : List (String × JsonValue))
  | byPosition (names : List String) (items : List JsonValue)

/-- A record with the fields `names`, in order: an object that names none of them twice, or
    an array no longer than the record. -/
def record (names : List String) : JsonValue → Option Fields
  | .obj fs => if names.all fun n => (fs.filter (·.1 == n)).length ≤ 1 then some (.byName fs) else none
  | .arr xs => if xs.length ≤ names.length then some (.byPosition names xs) else none
  | _ => none

namespace Fields

/-- The value given for a field, if any. -/
def get? : Fields → String → Option JsonValue
  | byName es, k => (es.find? (·.1 == k)).map (·.2)
  | byPosition names items, k => (names.idxOf? k).bind fun i => items[i]?

/-- Whether the fields came by position. -/
def positional : Fields → Bool
  | byName _ => false
  | byPosition _ _ => true

/-- A field that must be given. -/
def req {α : Type} (r : Fields) (key : String) (f : JsonValue → Option α) : Option α :=
  (r.get? key).bind f

/-- An optional field: `null` means absent, and so does a missing field of an object. -/
def opt {α : Type} (r : Fields) (key : String) (f : JsonValue → Option α) : Option (Option α) :=
  match r.get? key with
  | none => if r.positional then none else some none
  | some .null => some none
  | some v => (f v).map some

/-- An optional field that is absent when missing, also from an array. -/
def optOrNone {α : Type} (r : Fields) (key : String) (f : JsonValue → Option α) :
    Option (Option α) :=
  match r.get? key with
  | none => some none
  | some .null => some none
  | some v => (f v).map some

/-- A field with a default for when it is missing. -/
def withDefault {α : Type} (r : Fields) (key : String) (f : JsonValue → Option α) (d : α) :
    Option α :=
  match r.get? key with
  | none => some d
  | some v => f v

end Fields

/-- Sets a key of an association list, in place if present. -/
def assign (m : List (String × String)) (k v : String) : List (String × String) :=
  if m.any (·.1 == k) then m.map fun p => if p.1 == k then (k, v) else p else m ++ [(k, v)]

/-- A map from strings to strings; of a key written twice, the later value counts. -/
def textMap : JsonValue → Option (List (String × String))
  | .obj fs =>
    let pair : String × JsonValue → Option (String × String) := fun (k, v) => (text v).map (k, ·)
    (fs.mapM pair).map fun ps => ps.foldl (fun m (kv : String × String) => assign m kv.1 kv.2) []
  | _ => none

/-- A dimension key. -/
def dimensionKey (v : JsonValue) : Option DimensionKey := do
  let r ← record ["company", "fiscal_period", "cost_center", "account", "project", "branch"] v
  pure {
    company := ← r.req "company" text
    fiscalPeriod := ← r.req "fiscal_period" text
    costCenter := ← r.req "cost_center" text
    account := ← r.req "account" text
    project := ← r.opt "project" text
    branch := ← r.opt "branch" text }

/-- A fiscal period. -/
def fiscalPeriod (v : JsonValue) : Option FiscalPeriod := do
  let r ← record ["name", "company", "start_date", "end_date"] v
  pure {
    name := ← r.req "name" text
    company := ← r.optOrNone "company" text
    start := ← r.req "start_date" date
    finish := ← r.req "end_date" date }

/-- A document reference. -/
def documentRef (v : JsonValue) : Option DocumentRef := do
  let r ← record ["doctype", "name"] v
  pure { doctype := ← r.req "doctype" text, name := ← r.req "name" text }

/-- An entry type by its upper-case name. -/
def entryType : JsonValue → Option EntryType := named EntryType.ofCode?

/-- A direction, `OUT` or `IN`. -/
def direction : JsonValue → Option Direction :=
  named fun s => if s = "OUT" then some .out else if s = "IN" then some .inbound else none

/-- A key with an amount, as envelopes and postings are given. -/
def keyAmount (v : JsonValue) : Option (DimensionKey × Decimal) := do
  let r ← record ["key", "amount"] v
  pure (← r.req "key" dimensionKey, ← r.req "amount" amount)

/-- An amount line. -/
def amountLine (v : JsonValue) : Option AmountLine := do
  let r ← record ["account", "amount"] v
  pure { account := ← r.req "account" text, amount := ← r.req "amount" amount }

/-- An allocation status, `draft`, `approved` or `cancelled`. Inside an event, whose parts
    are held as read before they are decoded, an empty object also stands for the `null`
    after the name. -/
def allocationStatus (held : Bool) : JsonValue → Option AllocationStatus
  | .obj [(k, .obj [])] => if held then AllocationStatus.ofName? k else none
  | v => named AllocationStatus.ofName? v

/-- An allocation line. -/
def allocationLine (v : JsonValue) : Option AllocationLine := do
  let r ← record ["cost_center", "amount", "project", "branch"] v
  pure {
    costCenter := ← r.req "cost_center" text
    amount := ← r.req "amount" amount
    project := ← r.optOrNone "project" text
    branch := ← r.optOrNone "branch" text }

/-- An allocation document; its status is a draft unless said otherwise. -/
def allocation (held : Bool) (v : JsonValue) : Option AllocationDocument := do
  let r ← record ["name", "status", "total", "lines"] v
  pure {
    name := ← r.req "name" text
    status := ← r.withDefault "status" (allocationStatus held) .draft
    total := ← r.req "total" amount
    lines := ← r.req "lines" (list allocationLine) }

/-- A currency, by its exact code. -/
def currency : JsonValue → Option Currency := named Currency.ofCode?

/-- What a document says about where its amounts belong, dated `postingDate`: cost center
    and account default to empty text, the rest are optional. -/
def dimensionSourceOn (postingDate : Date) (v : JsonValue) : Option DimensionSource := do
  let o ← object v
  pure {
    company := ← opt o "company" text
    fiscalPeriod := ← opt o "fiscal_period" text
    costCenter := (← opt o "cost_center" text).getD ""
    account := (← opt o "account" text).getD ""
    project := ← opt o "project" text
    branch := ← opt o "branch" text
    postingDate }

/-- The posting date of a document's dimension fields, as text. -/
def postingDateText (v : JsonValue) : Option String := do
  let o ← object v
  req o "posting_date" text

/-- `document` or `secondary`. -/
def sliceMode : JsonValue → Option SliceMode
  | .str "document" => some .document
  | .str "secondary" => some .secondary
  | _ => none

/-- Which optional dimensions are enforced; each is off unless said otherwise. -/
def enforceScope (v : JsonValue) : Option EnforceScope := do
  let r ← record ["project", "branch"] v
  pure {
    project := ← r.withDefault "project" flag false
    branch := ← r.withDefault "branch" flag false }

/-- The fields of the settings, in order. -/
def configFields : List String :=
  ["enable_budget_lock", "lock_on_state", "enforce_scope", "control_by_account", "overrun_role",
    "rounding_tolerance", "currency", "default_fiscal_period", "lock_timeout_ms",
    "actuals_cache_ttl_secs", "dispatch_workers"]

/-- Settings, every field defaulted. Validation is separate. -/
def config (v : JsonValue) : Option BudgetConfig := do
  let r ← record configFields v
  let d : BudgetConfig := {}
  pure {
    enableBudgetLock := ← r.withDefault "enable_budget_lock" flag d.enableBudgetLock
    lockOnState := ← r.withDefault "lock_on_state" text d.lockOnState
    enforceScope := ← r.withDefault "enforce_scope" enforceScope d.enforceScope
    controlByAccount := ← r.withDefault "control_by_account" flag d.controlByAccount
    overrunRole := ← r.withDefault "overrun_role" text d.overrunRole
    roundingTolerance := ← r.withDefault "rounding_tolerance" amount d.roundingTolerance
    currency := ← r.withDefault "currency" currency d.currency
    defaultFiscalPeriod := ← r.optOrNone "default_fiscal_period" text
    lockTimeoutMs := ← r.withDefault "lock_timeout_ms" count d.lockTimeoutMs
    actualsCacheTtlSecs := ← r.withDefault "actuals_cache_ttl_secs" count d.actualsCacheTtlSecs
    dispatchWorkers := ← r.withDefault "dispatch_workers" count d.dispatchWorkers }

end Decode

end Encumbrance
