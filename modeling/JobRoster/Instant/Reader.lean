import JobRoster.Instant.Basic
import JobRoster.Text.Blank
import JobRoster.Text.Digits

/-!
# Reading instants

A moment is read from a date, a `T` or a blank, a time of day with an optional fraction, and an offset from
universal time: `2040-01-01T00:00:00.5+02:00`. Blanks may stand between the parts. A year has at most four digits
unless it has a sign. Digits of a fraction after the ninth are dropped. The offset is `Z`, `UTC`, or a sign with
hours and minutes. The parts are read from left to right and the first fault is reported. A second of 60 is the leap
second at the end of its minute.
-/

namespace JobRoster

/-- What is wrong with the text of a moment. -/
inductive TimeFault where
  /-- The text ends too early. -/
  | ended
  /-- A character stands where it cannot. -/
  | unexpected
  /-- A part lies outside its range. -/
  | outOfRange
  /-- The date and the offset name a moment outside the range of instants. -/
  | noSuchMoment
  /-- Something follows the moment. -/
  | trailing
  deriving DecidableEq, Repr

/-- The text of a fault. -/
def TimeFault.message : TimeFault → String
  | .ended => "premature end of input"
  | .unexpected => "input contains invalid characters"
  | .outOfRange => "input is out of range"
  | .noSuchMoment => "no possible date and time matching input"
  | .trailing => "trailing input"

namespace Instant

/-- A reading step: it takes text off the front of what is left, or fails. -/
abbrev Step := StateT (List Char) (Except TimeFault)

/-- Blanks, if there are any. -/
def skipBlanks : Step Unit := modify Text.trimStart

/-- The next character, which has to be there. -/
def readChar : Step Char := do
  match ← get with
  | [] => throw .ended
  | c :: rest => set rest; return c

/-- One given character. -/
def readMark (mark : Char) : Step Unit := do
  if (← readChar) ≠ mark then throw .unexpected

/-- The digits that follow, at least one and at most `limit` of them if there is a limit. -/
def readDigits (limit : Option Nat) : Step (List Char) := do
  match ← get with
  | [] => throw .ended
  | cs =>
    let digits := cs.takeWhile Char.isDigit
    let taken := match limit with
      | some n => digits.take n
      | none => digits
    if taken.isEmpty then throw .unexpected
    set (cs.drop taken.length)
    return taken

/-- A number of one or two digits between two bounds, after blanks. -/
def readPart (low high : Nat) : Step Nat := do
  skipBlanks
  let n := Text.numberOf 10 (← readDigits (some 2))
  if low ≤ n ∧ n ≤ high then return n else throw .outOfRange

/-- A part that has a mark in front of it. -/
def readMarkedPart (mark : Char) (low high : Nat) : Step Nat := do
  skipBlanks
  readMark mark
  readPart low high

/-- A year, after blanks. -/
def readYear : Step Int := do
  skipBlanks
  let sign := (← get).head?
  if sign = some '-' ∨ sign = some '+' then discard readChar
  let limit := if sign = some '-' ∨ sign = some '+' then none else some 4
  let size : Int := Text.numberOf 10 (← readDigits limit)
  let year := if sign = some '-' then -size else size
  if -2147483648 ≤ year ∧ year ≤ 2147483647 then return year else throw .outOfRange

/-- A fraction of a second in nanoseconds, if there is one. -/
def readFraction : Step Nat := do
  if (← get).head? = some '.' then
    readMark '.'
    let digits ← readDigits (some 9)
    modify (List.dropWhile Char.isDigit)
    return Text.numberOf 10 digits * Nat.pow 10 (9 - digits.length)
  else return 0

/-- Two digits, read as one number. -/
def readPair : Step Nat := do
  match ← get with
  | a :: b :: rest =>
    if a.isDigit && b.isDigit then
      set rest
      return Text.numberOf 10 [a, b]
    else throw .unexpected
  | [a] => throw (if a.utf8Size = 1 then .ended else .unexpected)
  | [] => throw .ended

/-- The seconds by which local time is ahead of universal time. -/
def readOffset : Step Int := do
  let cs ← get
  if (cs.take 3).map Char.toUpper = ['U', 'T', 'C'] then
    set (cs.drop 3)
    return 0
  let sign ← readChar
  if sign = 'Z' || sign = 'z' then return 0
  else if sign = '+' || sign = '-' || sign = '\u2212' then
    let hours ← readPair
    modify (List.dropWhile fun c => c = ':' || Text.isBlank c)
    let minutes ← readPair
    if 60 ≤ minutes then throw .outOfRange
    let seconds : Int := hours * 3600 + minutes * 60
    return if sign = '+' then seconds else -seconds
  else throw .unexpected

/-- The moment of a local date and time, given how far local time is ahead. A second of 60 begins `10 ^ 9` nanoseconds
after the second of 59. -/
def ofLocal (date : Date) (hour minute second nanos : Nat) (ahead : Int) : Except TimeFault Instant :=
  if ¬ (-86400 < ahead ∧ ahead < 86400) then .error .outOfRange
  else if ¬ (date.Valid ∧ -262143 ≤ date.year ∧ date.year ≤ 262142) then .error .outOfRange
  else
    let ordinary := min second 59
    let secondOfDay := hour * 3600 + minute * 60 + ordinary
    match of? (date.toDays * perDay + secondOfDay - ahead) ((second - ordinary) * perSecond + nanos) with
    | some t => .ok t
    | none => .error .noSuchMoment

/-- The letter or blank between a date and a time of day. -/
def readSeparator : Step Unit := do
  let c ← readChar
  if c ≠ 'T' ∧ c ≠ 't' ∧ c ≠ ' ' then throw .unexpected

/-- A moment, and nothing but blanks after it. -/
def readMoment : Step Instant := do
  let year ← readYear
  let month ← readMarkedPart '-' 1 12
  let day ← readMarkedPart '-' 1 31
  readSeparator
  let hour ← readPart 0 23
  let minute ← readMarkedPart ':' 0 59
  let second ← readMarkedPart ':' 0 60
  let nanos ← readFraction
  skipBlanks
  let ahead ← readOffset
  skipBlanks
  if (← get).isEmpty then
    ofLocal ⟨year, month, day⟩ hour minute second nanos ahead
  else throw .trailing

/-- The moment that a text names. -/
def read (s : String) : Except TimeFault Instant := readMoment.run' s.toList

end Instant

end JobRoster
