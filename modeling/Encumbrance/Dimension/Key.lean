/-!
# Dimension keys and budget scopes

Every ledger row is booked against a `DimensionKey`: company, fiscal period, cost center and
account, and optionally a project and a branch. Keys are ordered field by field in that
order, text by code point, with an absent project or branch before any present one.

A `BudgetScope` is the bucket that availability is checked against. It is a key whose
account may be left open: a scope without an account holds every account of its cost
center. Project and branch must match exactly, an absent one matching only an absent one.
-/

namespace Encumbrance

/-- The dimensions one ledger row is booked against. -/
structure DimensionKey where
  company : String
  fiscalPeriod : String
  costCenter : String
  account : String
  project : Option String := none
  branch : Option String := none
  deriving DecidableEq, Repr, Inhabited

/-- Compares optional texts, an absent one first. -/
def compareOption (a b : Option String) : Ordering :=
  match a, b with
  | none, none => .eq
  | none, some _ => .lt
  | some _, none => .gt
  | some x, some y => compare x y

/-- The suffix naming a project and a branch, each when present. -/
def extrasText (project branch : Option String) : String :=
  (project.map ("/project=" ++ ·)).getD "" ++ (branch.map ("/branch=" ++ ·)).getD ""

namespace DimensionKey

/-- Field by field, in declaration order. -/
def cmp (a b : DimensionKey) : Ordering :=
  (compare a.company b.company).then <|
  (compare a.fiscalPeriod b.fiscalPeriod).then <|
  (compare a.costCenter b.costCenter).then <|
  (compare a.account b.account).then <|
  (compareOption a.project b.project).then (compareOption a.branch b.branch)

instance : Ord DimensionKey := ⟨cmp⟩

/-- `company/period/cost_center/account`, then `/project=P` and `/branch=B` when present. -/
def toText (k : DimensionKey) : String :=
  k.company ++ "/" ++ k.fiscalPeriod ++ "/" ++ k.costCenter ++ "/" ++ k.account ++
    extrasText k.project k.branch

end DimensionKey

/-- A bucket of keys: a key whose account may be left open. -/
structure BudgetScope where
  company : String
  fiscalPeriod : String
  costCenter : String
  account : Option String
  project : Option String
  branch : Option String
  deriving DecidableEq, Repr, Inhabited

namespace BudgetScope

/-- The scope of a key, keeping its account only when budgets are held per account. -/
def ofKey (k : DimensionKey) (byAccount : Bool) : BudgetScope :=
  { company := k.company, fiscalPeriod := k.fiscalPeriod, costCenter := k.costCenter,
    account := if byAccount then some k.account else none,
    project := k.project, branch := k.branch }

/-- A key lies in a scope when all fields agree, the account only if the scope names one. -/
def contains (s : BudgetScope) (k : DimensionKey) : Bool :=
  s.company == k.company && s.fiscalPeriod == k.fiscalPeriod && s.costCenter == k.costCenter &&
    (match s.account with
     | none => true
     | some a => a == k.account) &&
    s.project == k.project && s.branch == k.branch

/-- Field by field, in declaration order, an absent field first. -/
def cmp (a b : BudgetScope) : Ordering :=
  (compare a.company b.company).then <|
  (compare a.fiscalPeriod b.fiscalPeriod).then <|
  (compare a.costCenter b.costCenter).then <|
  (compareOption a.account b.account).then <|
  (compareOption a.project b.project).then (compareOption a.branch b.branch)

instance : Ord BudgetScope := ⟨cmp⟩

/-- Like a key's text, with `*` for an open account. -/
def toText (s : BudgetScope) : String :=
  s.company ++ "/" ++ s.fiscalPeriod ++ "/" ++ s.costCenter ++ "/" ++ s.account.getD "*" ++
    extrasText s.project s.branch

theorem contains_ofKey (k : DimensionKey) (byAccount : Bool) : (ofKey k byAccount).contains k := by
  cases byAccount <;> simp [ofKey, contains]

end BudgetScope

end Encumbrance
