import Encumbrance.Calendar.Date

/-!
# Fiscal calendars

A fiscal period is a named run of days, both ends included, that belongs to one company or
to all of them. A calendar is a list of periods. The period of a company on a date is found in
one reading of the periods that apply to the company and contain the date: the first of the
company's own ends the reading, and of the shared ones the first is kept for the case that
none of the company's own comes.
-/

namespace Encumbrance

/-- A named fiscal period, for one company or (with no company) for every company. -/
structure FiscalPeriod where
  name : String
  company : Option String
  start : Date
  finish : Date
  deriving DecidableEq, Repr

namespace FiscalPeriod

/-- Both ends of the period count as inside it. -/
def containsDate (p : FiscalPeriod) (d : Date) : Bool := decide (p.start ≤ d) && decide (d ≤ p.finish)

/-- A shared period applies to every company; another only to its own, matched exactly. -/
def appliesTo (p : FiscalPeriod) (company : String) : Bool :=
  match p.company with
  | none => true
  | some c => c == company

end FiscalPeriod

/-- The fiscal periods known to the engine, in the order given. -/
abbrev FiscalCalendar := List FiscalPeriod

namespace FiscalCalendar

/-- Reads periods in their order, `shared` being the shared period kept so far: a period of a
    company's own ends the reading with its name, and a shared one is kept only when none is
    kept yet. -/
def ownOrShared (shared : Option String) : List FiscalPeriod → Option String
  | [] => shared
  | p :: ps => if p.company.isSome then some p.name else ownOrShared (shared.or (some p.name)) ps

/-- The period for a company on a date: the periods that apply to the company and contain the
    date, read in the calendar's order with no shared period kept yet. -/
def periodFor (cal : FiscalCalendar) (company : String) (d : Date) : Option String :=
  ownOrShared none (cal.filter fun p => p.appliesTo company && p.containsDate d)

end FiscalCalendar

end Encumbrance
