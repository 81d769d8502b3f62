import JobRoster.Text.Fold

/-!
# The fields of a cron expression

A cron expression has a field for each part of a civil time, with a range of values, and for two of the fields names
for the values. Days of the week count from Sunday, which is 1.
-/

namespace JobRoster.Cron

/-- A part of a civil time. -/
inductive Field where
  /-- The second of the minute. -/
  | seconds
  /-- The minute of the hour. -/
  | minutes
  /-- The hour of the day. -/
  | hours
  /-- The day of the month. -/
  | daysOfMonth
  /-- The month of the year. -/
  | months
  /-- The day of the week. -/
  | daysOfWeek
  /-- The year. -/
  | years
  deriving DecidableEq, Repr

namespace Field

/-- What a field is called in messages. -/
def label : Field → String
  | seconds => "Seconds"
  | minutes => "Minutes"
  | hours => "Hours"
  | daysOfMonth => "Days of Month"
  | months => "Months"
  | daysOfWeek => "Days of Week"
  | years => "Years"

/-- The least value of a field. -/
def low : Field → Nat
  | seconds | minutes | hours => 0
  | daysOfMonth | months | daysOfWeek => 1
  | years => 1970

/-- The greatest value of a field. -/
def high : Field → Nat
  | seconds | minutes => 59
  | hours => 23
  | daysOfMonth => 31
  | months => 12
  | daysOfWeek => 7
  | years => 2100

/-- All values of a field, in ascending order. -/
def values (f : Field) : List Nat := List.range' f.low (f.high + 1 - f.low)

theorem mem_values {f : Field} {v : Nat} : v ∈ f.values ↔ f.low ≤ v ∧ v ≤ f.high := by
  cases f <;> simp [values, low, high, List.mem_range'_1] <;> omega

/-- The names of the values of a field, each with the value it stands for. They are written in small letters here,
and their case does not matter. -/
def names : Field → List (String × Nat)
  | months =>
    [("jan", 1), ("january", 1), ("feb", 2), ("february", 2), ("mar", 3), ("march", 3), ("apr", 4),
      ("april", 4), ("may", 5), ("jun", 6), ("june", 6), ("jul", 7), ("july", 7), ("aug", 8), ("august", 8),
      ("sep", 9), ("september", 9), ("oct", 10), ("october", 10), ("nov", 11), ("november", 11), ("dec", 12),
      ("december", 12)]
  | daysOfWeek =>
    [("sun", 1), ("sunday", 1), ("mon", 2), ("monday", 2), ("tue", 3), ("tues", 3), ("tuesday", 3),
      ("wed", 4), ("wednesday", 4), ("thu", 5), ("thurs", 5), ("thursday", 5), ("fri", 6), ("friday", 6),
      ("sat", 7), ("saturday", 7)]
  | _ => []

/-- The value that a name stands for. -/
def valueOf? (f : Field) (name : List Char) : Option Nat :=
  (f.names.find? fun entry => entry.1.toList = Text.fold name).map (·.2)

end Field

end JobRoster.Cron
