import JobRoster.Instant.Basic

/-!
# Instants in writing

A moment is written in universal time as `2040-01-01T00:00:00Z`. The fraction of a second has three, six or nine
digits, the fewest that are exact, and is left out when it is zero. The leap second at the end of a minute has the
number 60. A year outside 0 to 9999 has a sign.
-/

namespace JobRoster

/-- The decimal digits of a number, filled up with zeros on the left to a width. -/
def padded (width n : Nat) : List Char :=
  let digits := Nat.toDigits 10 n
  List.replicate (width - digits.length) '0' ++ digits

/-- A year: four digits, with a sign when it is negative or needs more. -/
def Date.writeYear (year : Int) : List Char :=
  if 0 ≤ year ∧ year ≤ 9999 then padded 4 year.toNat
  else (if year < 0 then '-' else '+') :: padded 4 year.natAbs

/-- A date, as in `2040-01-01`. -/
def Date.write (d : Date) : List Char :=
  writeYear d.year ++ ['-'] ++ padded 2 d.month ++ ['-'] ++ padded 2 d.day

namespace Instant

/-- The fraction of a second, with its point. -/
def writeFraction (nanos : Nat) : List Char :=
  if nanos = 0 then []
  else if nanos % 1000000 = 0 then '.' :: padded 3 (nanos / 1000000)
  else if nanos % 1000 = 0 then '.' :: padded 6 (nanos / 1000)
  else '.' :: padded 9 nanos

/-- The time of day. -/
def writeTime (t : Instant) : List Char :=
  let s := t.secondOfDay
  padded 2 (s / 3600) ++ [':'] ++ padded 2 (s / 60 % 60) ++ [':'] ++ padded 2 (s % 60 + t.nanos / perSecond) ++
    writeFraction (t.nanos % perSecond)

/-- The moment as it is exchanged: `2040-01-01T00:00:00Z`. -/
def write (t : Instant) : String :=
  String.ofList (t.date.write ++ ['T'] ++ t.writeTime ++ ['Z'])

/-- The moment for people to read: `2040-01-01 00:00:00 UTC`. -/
def describe (t : Instant) : String :=
  String.ofList (t.date.write ++ [' '] ++ t.writeTime ++ [' ', 'U', 'T', 'C'])

/-- A moment that may be missing, for people to read: `Some(2040-01-01T00:00:00Z)` or `None`. -/
def describeOption : Option Instant → String
  | some t => "Some(" ++ t.write ++ ")"
  | none => "None"

end Instant

end JobRoster
