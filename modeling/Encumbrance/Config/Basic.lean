import Encumbrance.Decimal.Parse
import Encumbrance.Dimension.Resolve
import Encumbrance.Money.Currency

/-!
# Budget control settings

The settings of the engine, their defaults, and the checks a loaded configuration must
pass before the engine accepts it. The checks run in a fixed order and the first failure is
reported: the lock state must not be blank, the rounding tolerance must not carry a minus
sign, and at least one dispatch worker is needed.
-/

namespace Encumbrance

/-- The engine's settings. -/
structure BudgetConfig where
  enableBudgetLock : Bool := true
  lockOnState : String := "Approved"
  enforceScope : EnforceScope := {}
  controlByAccount : Bool := true
  overrunRole : String := "Budget Manager"
  roundingTolerance : Decimal := Decimal.cent
  currency : Currency := .usd
  defaultFiscalPeriod : Option String := none
  lockTimeoutMs : Nat := 2000
  actualsCacheTtlSecs : Nat := 0
  dispatchWorkers : Nat := 4
  deriving Repr

instance : Inhabited BudgetConfig := ⟨{}⟩

/-- Why a configuration was refused. -/
inductive ConfigError where
  /-- The source could not be read or did not have the expected shape. -/
  | load (detail : String)
  /-- A value was read but is not acceptable. -/
  | invalid (field : String) (reason : String)
  deriving DecidableEq, Repr

namespace ConfigError

/-- The text of the error. -/
def message : ConfigError → String
  | load detail => "Failed to load configuration: " ++ detail
  | invalid field reason => "Invalid configuration value for " ++ field ++ ": " ++ reason

end ConfigError

namespace BudgetConfig

/-- The decimal places amounts are rounded to: the currency's minor units. -/
def precision (c : BudgetConfig) : Nat := c.currency.minorUnits

/-- Accepts a configuration or names its first unacceptable value. -/
def validate (c : BudgetConfig) : Except ConfigError Unit := do
  if Text.isBlank c.lockOnState then
    throw (.invalid "lock_on_state" "must not be empty")
  if c.roundingTolerance.signNegative then
    throw (.invalid "rounding_tolerance" ("must not be negative, got " ++ c.roundingTolerance.toText))
  if c.dispatchWorkers = 0 then
    throw (.invalid "dispatch_workers" "at least one worker is required")

end BudgetConfig

end Encumbrance
