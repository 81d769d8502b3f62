/-!
# Calendar dates

Dates of the proleptic Gregorian calendar with astronomical year numbers: year 0 exists, and negative years
precede it. A date corresponds to the count of days since 1970-01-01, negative before it.

The calendar repeats every 400 years, which are 146097 days. Within such a cycle the year is taken to begin on
1 March, so that a leap day is the last day of its year and the months before it always have the same lengths.
-/

namespace JobRoster

/-- A day of the calendar. -/
structure Date where
  /-- The year. -/
  year : Int
  /-- The month, from 1. -/
  month : Nat
  /-- The day of the month, from 1. -/
  day : Nat
  deriving DecidableEq, Repr

namespace Date

/-- Whether a year has a 29 February. -/
def isLeapYear (year : Int) : Bool :=
  year % 4 = 0 && (year % 100 ≠ 0 || year % 400 = 0)

/-- The number of days of a month. -/
def daysInMonth (year : Int) (month : Nat) : Nat :=
  if month = 2 then (if isLeapYear year then 29 else 28)
  else if month = 4 || month = 6 || month = 9 || month = 11 then 30
  else 31

/-- The dates that exist. -/
def Valid (d : Date) : Prop :=
  1 ≤ d.month ∧ d.month ≤ 12 ∧ 1 ≤ d.day ∧ d.day ≤ daysInMonth d.year d.month

instance (d : Date) : Decidable d.Valid := by unfold Valid; infer_instance

/-- The days from 0000-03-01 to 1970-01-01. -/
def epochOffset : Int := 719468

/-- The days of 400 years. -/
def cycleDays : Int := 146097

/-- The days before the first of a month, counted from 1 March; months are counted from March too. -/
def daysBeforeMonth (fromMarch : Nat) : Nat := (153 * fromMarch + 2) / 5

/-- The date that lies `days` days after 1970-01-01. -/
def ofDays (days : Int) : Date :=
  let shifted := days + epochOffset
  let dayOfCycle := (shifted % cycleDays).toNat
  let yearOfCycle :=
    (dayOfCycle - dayOfCycle / 1460 + dayOfCycle / 36524 - dayOfCycle / 146096) / 365
  let dayOfYear := dayOfCycle - (365 * yearOfCycle + yearOfCycle / 4 - yearOfCycle / 100)
  let fromMarch := (5 * dayOfYear + 2) / 153
  let month := if fromMarch < 10 then fromMarch + 3 else fromMarch - 9
  let year := (yearOfCycle : Int) + shifted / cycleDays * 400
  { year := if month ≤ 2 then year + 1 else year
    month
    day := dayOfYear - daysBeforeMonth fromMarch + 1 }

/-- The count of days from 1970-01-01 to a date. -/
def toDays (d : Date) : Int :=
  let year := if d.month ≤ 2 then d.year - 1 else d.year
  let yearOfCycle := (year % 400).toNat
  let fromMarch := if d.month ≤ 2 then d.month + 9 else d.month - 3
  let dayOfCycle :=
    365 * yearOfCycle + yearOfCycle / 4 - yearOfCycle / 100 + daysBeforeMonth fromMarch + (d.day - 1)
  year / 400 * cycleDays + dayOfCycle - epochOffset

/-- The day of the week of the day that lies `days` days after 1970-01-01: 1 is Sunday and 7 is Saturday. -/
def weekday (days : Int) : Nat := ((days + 4) % 7).toNat + 1

end Date

end JobRoster
