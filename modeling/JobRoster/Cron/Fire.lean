import JobRoster.Cron.Schedule
import JobRoster.Instant.Basic

/-!
# Fire times

An instant belongs to a schedule when it is a whole second and each part of its civil time is admitted: the day of the
month and the day of the week both have to be. No moment of a leap second belongs to a schedule. Beside this membership
stands the search for the first instant of a schedule in a window, which goes through the days one by one and within a
day through the admitted times.

All instants of a schedule lie in the years from 1970 to 2100. A search from before the year 0 finds nothing.
-/

namespace JobRoster.Cron.Schedule

/-- Whether a day, counted from 1970-01-01, is admitted. -/
def admitsDay (s : Schedule) (days : Int) : Bool :=
  let d := Date.ofDays days
  0 ≤ d.year && s.years.contains d.year.toNat && s.months.contains d.month && s.daysOfMonth.contains d.day
    && s.daysOfWeek.contains (Date.weekday days)

/-- Whether a time of day, in seconds since the day began, is admitted. -/
def admitsTime (s : Schedule) (time : Nat) : Bool :=
  s.hours.contains (time / 3600) && s.minutes.contains (time / 60 % 60) && s.seconds.contains (time % 60)

/-- An instant belongs to a schedule when it is a whole second of an admitted time of an admitted day. -/
instance : Membership Instant Schedule where
  mem s t := t.nanos = 0 ∧ s.admitsDay t.dayNumber = true ∧ s.admitsTime t.secondOfDay = true

theorem mem_iff {s : Schedule} {t : Instant} :
    t ∈ s ↔ t.nanos = 0 ∧ s.admitsDay t.dayNumber = true ∧ s.admitsTime t.secondOfDay = true := Iff.rfl

instance (s : Schedule) (t : Instant) : Decidable (t ∈ s) := by rw [mem_iff]; infer_instance

/-! ### The search -/

/-- The last day of the year 2100. -/
def lastDay : Nat := 47846

/-- The first admitted time of day that is not before a given one. -/
def timeFrom (s : Schedule) (time : Nat) : Option Nat :=
  s.hours.findSome? fun h => s.minutes.findSome? fun m => s.seconds.findSome? fun x =>
    if time ≤ h * 3600 + m * 60 + x then some (h * 3600 + m * 60 + x) else none

/-- The first second since 1970 that is admitted and not before a given one. -/
def secondFrom (s : Schedule) (second : Nat) : Option Nat :=
  let today := second / 86400
  (List.range' today (lastDay + 1 - today)).findSome? fun (day : Nat) =>
    if s.admitsDay day then
      (s.timeFrom (if day = today then second % 86400 else 0)).map fun time => day * 86400 + time
    else none

/-- The first fire time after one instant, not before a second one and not after a third one, if that is given. The
search starts one second before the second instant, lest it be missed, and looks at whole seconds after its own
start; both steps can leave the range of instants. -/
def firstFire (s : Schedule) (after start : Instant) (stop : Option Instant) :
    Except Overflow (Option Instant) := do
  let before ← start.sub Instant.perSecond
  let bound := after.later before
  let next ← bound.add Instant.perSecond
  if next.date.year < 0 then return none
  let second := max (bound.second + 1) start.ceilSecond
  return ((s.secondFrom second.toNat).bind fun n => Instant.ofSeconds? n).filter fun t =>
    stop.all fun last => t ≤ last

/-- Fire times one after another, each the first after the one before; at most `n` of them, and nothing after the
first that is missing. -/
def fireTimes (s : Schedule) (start : Instant) (stop : Option Instant) :
    Nat → Instant → Except Overflow (List (Option Instant))
  | 0, _ => .ok []
  | n + 1, after => do
    match ← s.firstFire after start stop with
    | some t => return some t :: (← s.fireTimes start stop n t)
    | none => return [none]

end JobRoster.Cron.Schedule
