import Encumbrance.Calendar.Fiscal
import Encumbrance.Dimension.Key
import Encumbrance.Text.Blank

/-!
# Resolving a key from document fields

A document line names its cost center and account and may name a company, a fiscal period,
a project and a branch. Resolution turns these into a full `DimensionKey`, or names the first
dimension it could not find:

1. the cost center and then the account must not be blank;
2. the company is the document's, else the owner of the cost center in the directory, taken
   as stored (the owner must not be blank);
3. the fiscal period is the first non-blank of the document's, the caller's default and the
   global default, else the calendar period of the company on the posting date;
4. project and branch are kept only when the configuration enforces them and they are not
   blank.

Every value taken from the document is trimmed.
-/

namespace Encumbrance

/-- Which optional dimensions take part in keys. -/
structure EnforceScope where
  project : Bool := false
  branch : Bool := false
  deriving DecidableEq, Repr, Inhabited

/-- The document fields one key is derived from. -/
structure DimensionSource where
  company : Option String := none
  fiscalPeriod : Option String := none
  costCenter : String
  account : String
  project : Option String := none
  branch : Option String := none
  postingDate : Date
  deriving DecidableEq, Repr

/-- The dimension that resolution could not derive. -/
inductive Dimension where
  | costCenter
  | account
  | company
  | fiscalPeriod
  deriving DecidableEq, Repr

namespace Dimension

/-- The field name used in messages. -/
def name : Dimension → String
  | costCenter => "cost_center"
  | account => "account"
  | company => "company"
  | fiscalPeriod => "fiscal_period"

end Dimension

/-- A failed resolution: what was missing, and the untrimmed cost center and account. -/
structure Unresolved where
  missing : Dimension
  costCenter : String
  account : String
  deriving DecidableEq, Repr

/-- Reference data for resolution. -/
structure Resolver where
  directory : List (String × String)
  calendar : FiscalCalendar
  enforce : EnforceScope
  globalDefaultPeriod : Option String

namespace Resolver

/-- The owner of a cost center in the directory. -/
def companyOf (r : Resolver) (costCenter : String) : Option String :=
  (r.directory.find? (·.1 == costCenter)).map (·.2)

/-- Resolves a key as described at the top of this module. -/
def resolve (r : Resolver) (src : DimensionSource) (callerDefault : Option String) :
    Except Unresolved DimensionKey := do
  let fail (d : Dimension) : Except Unresolved DimensionKey :=
    .error ⟨d, src.costCenter, src.account⟩
  let some costCenter := Text.nonBlank? src.costCenter | fail .costCenter
  let some account := Text.nonBlank? src.account | fail .account
  let company? :=
    match src.company.bind Text.nonBlank? with
    | some c => some c
    | none => (r.companyOf costCenter).filter (!Text.isBlank ·)
  let some company := company? | fail .company
  let period? :=
    (src.fiscalPeriod.bind Text.nonBlank?).orElse fun _ =>
    (callerDefault.bind Text.nonBlank?).orElse fun _ =>
    (r.globalDefaultPeriod.bind Text.nonBlank?).orElse fun _ =>
    r.calendar.periodFor company src.postingDate
  let some period := period? | fail .fiscalPeriod
  let project := if r.enforce.project then src.project.bind Text.nonBlank? else none
  let branch := if r.enforce.branch then src.branch.bind Text.nonBlank? else none
  pure { company, fiscalPeriod := period, costCenter, account, project, branch }

end Resolver

end Encumbrance
