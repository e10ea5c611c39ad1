import Encumbrance.Json.Value
import Encumbrance.Ledger.Entry
import Encumbrance.Control.Error

/-!
# Writing domain values as JSON

The JSON form of a value uses snake-case field names. Amounts and dates are strings, an
absent optional field is `null`, and enumerations are written by their names.
-/

namespace Encumbrance

namespace Encode

/-- An amount as its decimal text. -/
def amount (d : Decimal) : JsonValue := .str d.toText

/-- A date as `YYYY-MM-DD`. -/
def date (d : Date) : JsonValue := .str d.toText

/-- Optional text, `null` when absent. -/
def optText : Option String → JsonValue
  | some s => .str s
  | none => .null

/-- A dimension key. -/
def dimensionKey (k : DimensionKey) : JsonValue :=
  .obj [("company", .str k.company), ("fiscal_period", .str k.fiscalPeriod),
    ("cost_center", .str k.costCenter), ("account", .str k.account),
    ("project", optText k.project), ("branch", optText k.branch)]

/-- A budget scope; an open account is `null`. -/
def budgetScope (s : BudgetScope) : JsonValue :=
  .obj [("company", .str s.company), ("fiscal_period", .str s.fiscalPeriod),
    ("cost_center", .str s.costCenter), ("account", optText s.account),
    ("project", optText s.project), ("branch", optText s.branch)]

/-- A document reference. -/
def documentRef (d : DocumentRef) : JsonValue :=
  .obj [("doctype", .str d.doctype), ("name", .str d.name)]

/-- A shortfall, its scope written by `scope`. -/
def shortfall (scope : BudgetScope → JsonValue) (s : Shortfall) : JsonValue :=
  .obj [("scope", scope s.scope), ("requested", amount s.requested),
    ("available", amount s.available), ("shortfall", amount s.shortfall)]

end Encode

end Encumbrance
