import JobRoster.Cron.Field
import JobRoster.Cron.Expression
import JobRoster.Text.Blank

/-!
# Schedules

A schedule holds, for each field of a cron expression, the values that the field admits, in ascending order. Here
are the meaning of an item, with the causes for which it has none, and the reading of a whole expression: a keyword,
or six fields with an optional seventh for the years.

An expression that cannot be read fails at a place, given as the text that is left from there on, and for a cause,
unless it is merely that nothing readable stands there.
-/

namespace JobRoster.Cron

/-- Why an item has no meaning in its field. -/
inductive Cause where
  /-- The field has no names for its values. -/
  | namesUnsupported (field : Field) (name : List Char)
  /-- The field has names, but not this one. -/
  | unknownName (field : Field) (name : List Char)
  /-- A span leaves the range of the field or runs backwards. -/
  | badSpan (field : Field) (first last : Nat)
  /-- A span between names runs backwards. -/
  | badNamedSpan (field : Field) (first last : List Char)
  /-- A step is zero. -/
  | zeroStep
  /-- A step is greater than the greatest value of the field. -/
  | longStep (field : Field) (step : Nat)
  /-- A value is below the range of the field. -/
  | tooSmall (field : Field) (value : Nat)
  /-- A value is above the range of the field. -/
  | tooGreat (field : Field) (value : Nat)
  deriving DecidableEq, Repr

/-- The text of a cause. -/
def Cause.message : Cause → String
  | namesUnsupported f name =>
    s!"The '{f.label}' field does not support using names. '{String.ofList name}' specified."
  | unknownName .months name => s!"'{String.ofList name}' is not a valid month name."
  | unknownName _ name => s!"'{String.ofList name}' is not a valid day of the week."
  | badSpan f first last => s!"Invalid range for {f.label}: {first}-{last}"
  | badNamedSpan f first last =>
    s!"Invalid named range for {f.label}: {String.ofList first}-{String.ofList last}"
  | zeroStep => "range step cannot be zero"
  | longStep f step => s!"{f.label} must be between 1 and {f.high}. ('{step}' specified.)"
  | tooSmall f v => s!"{f.label} must be greater than or equal to {f.low}. ('{v}' specified.)"
  | tooGreat f v => s!"{f.label} must be less than {f.high}. ('{v}' specified.)"

/-! ### The meaning of an item -/

/-- A value, checked to lie in the range of its field. -/
def Field.check (f : Field) (v : Nat) : Except Cause Nat :=
  if v < f.low then .error (.tooSmall f v)
  else if f.high < v then .error (.tooGreat f v)
  else .ok v

/-- The value that a name stands for, which has to exist. -/
def Field.lookUp (f : Field) (name : List Char) : Except Cause Nat :=
  if f.names.isEmpty then .error (.namesUnsupported f name)
  else match f.valueOf? name with
    | some v => .ok v
    | none => .error (.unknownName f name)

/-- The values of a field that lie between two numbers. -/
def Field.between (f : Field) (first last : Nat) : List Nat :=
  f.values.filter fun v => first ≤ v && v ≤ last

/-- The values that a base denotes. -/
def Base.values (f : Field) : Base → Except Cause (List Nat)
  | .all => .ok f.values
  | .one v => (f.check v).map fun v => [v]
  | .span first last =>
    if f.low ≤ first ∧ first ≤ last ∧ last ≤ f.high then .ok (f.between first last)
    else .error (.badSpan f first last)
  | .named first last => do
    let a ← f.lookUp first
    let b ← f.lookUp last
    if a ≤ b then .ok (f.between a b) else .error (.badNamedSpan f first last)

/-- Every `step`-th of some values, counted from the first of them. -/
def everyStep (step : Nat) (values : List Nat) : List Nat :=
  match values.head? with
  | some first => values.filter fun v => (v - first) % step = 0
  | none => []

/-- The values that an item denotes. A single number with a step stands for all values from it on. -/
def Item.values (f : Field) : Item → Except Cause (List Nat)
  | .plain base => base.values f
  | .name text => (f.lookUp text).map fun v => [v]
  | .stepped base step =>
    if step = 0 then .error .zeroStep
    else if f.high < step then .error (.longStep f step)
    else
      match base with
      | .one v => do
        let v ← f.check v
        return everyStep step (f.between v f.high)
      | base => (base.values f).map (everyStep step)

/-- The values that the items of a field denote together, in ascending order. The first item without a meaning
decides the cause. -/
def Field.admitted (f : Field) (items : List Item) : Except Cause (List Nat) := do
  let sets ← items.mapM (Item.values f)
  return f.values.filter fun v => sets.any (·.contains v)

/-! ### Expressions -/

/-- The values that each part of a civil time may have. -/
structure Schedule where
  /-- The admitted seconds. -/
  seconds : List Nat
  /-- The admitted minutes. -/
  minutes : List Nat
  /-- The admitted hours. -/
  hours : List Nat
  /-- The admitted days of the month. -/
  daysOfMonth : List Nat
  /-- The admitted months. -/
  months : List Nat
  /-- The admitted days of the week. -/
  daysOfWeek : List Nat
  /-- The admitted years. -/
  years : List Nat
  deriving DecidableEq, Repr

/-- The values that a schedule admits for a field. -/
def Schedule.admitted (s : Schedule) : Field → List Nat
  | .seconds => s.seconds
  | .minutes => s.minutes
  | .hours => s.hours
  | .daysOfMonth => s.daysOfMonth
  | .months => s.months
  | .daysOfWeek => s.daysOfWeek
  | .years => s.years

/-- Where and why an expression cannot be read. -/
structure Failure where
  /-- The text from the place of the failure on. -/
  unread : List Char
  /-- Why the field at that place has no meaning, if it has items at all. -/
  cause : Option Cause
  deriving DecidableEq, Repr

/-- The schedules that have a keyword. -/
def keywords : List (String × Schedule) :=
  let every : Field → List Nat := Field.values
  [("@yearly", ⟨[0], [0], [0], [1], [1], every .daysOfWeek, every .years⟩),
    ("@monthly", ⟨[0], [0], [0], [1], every .months, every .daysOfWeek, every .years⟩),
    ("@weekly", ⟨[0], [0], [0], every .daysOfMonth, every .months, [1], every .years⟩),
    ("@daily", ⟨[0], [0], [0], every .daysOfMonth, every .months, every .daysOfWeek, every .years⟩),
    ("@hourly", ⟨[0], [0], every .hours, every .daysOfMonth, every .months, every .daysOfWeek, every .years⟩)]

namespace Schedule

/-- The schedule of the keyword at the front of a text, and the text after it. -/
def keyword? (cs : List Char) : Option (Schedule × List Char) :=
  keywords.findSome? fun entry =>
    if entry.1.toList.isPrefixOf cs then some (entry.2, cs.drop entry.1.toList.length) else none

/-- The values of the field at the front of a text, and the text after it. A field without a meaning fails at its
start, blanks included; where no field can be read the failure is after the blanks. -/
def readField (f : Field) (cs : List Char) : Except Failure (List Nat × List Char) :=
  match Expression.field? cs with
  | none => .error ⟨Expression.skipBlanks cs, none⟩
  | some (items, rest) =>
    match f.admitted items with
    | .ok values => .ok (values, rest)
    | .error cause => .error ⟨cs, some cause⟩

/-- The end of an expression. -/
def readEnd (s : Schedule) (cs : List Char) : Except Failure Schedule :=
  if cs.isEmpty then .ok s else .error ⟨cs, none⟩

/-- The years at the end of an expression, if they can be read and have a meaning, and the text after them. -/
def readYears (cs : List Char) : List Nat × List Char :=
  match readField .years cs with
  | .ok found => found
  | .error _ => (Field.years.values, cs)

/-- The schedule of an expression without keyword. -/
def readFields (cs : List Char) : Except Failure Schedule := do
  let (seconds, cs) ← readField .seconds cs
  let (minutes, cs) ← readField .minutes cs
  let (hours, cs) ← readField .hours cs
  let (daysOfMonth, cs) ← readField .daysOfMonth cs
  let (months, cs) ← readField .months cs
  let (daysOfWeek, cs) ← readField .daysOfWeek cs
  let (years, cs) := readYears cs
  readEnd ⟨seconds, minutes, hours, daysOfMonth, months, daysOfWeek, years⟩ cs

/-- The schedule that a text denotes. -/
def read (cs : List Char) : Except Failure Schedule :=
  match keyword? (Expression.skipBlanks cs) with
  | some (s, rest) => readEnd s (Expression.skipBlanks rest)
  | none => readFields cs

/-- The text in which an expression is read: without blanks at its ends, and with a star for each question mark. -/
def normalize (expression : String) : List Char :=
  (Text.trim expression.toList).map fun c => if c = '?' then '*' else c

end Schedule

end JobRoster.Cron
