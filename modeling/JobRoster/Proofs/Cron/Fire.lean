import JobRoster.Engine.Store
import Mathlib.Tactic.Common

/-!
# The first fire time in a window

What is read off an expression are values of the fields, in ascending order (`ranged_of_read`). Given that, a time of
day that is put together from an hour, a minute and a second of a schedule is taken apart into the same ones, so the
search ends only with an instant of the schedule (`mem_of_firstFire`). That the instant lies in the window does not
depend on the schedule (`within_of_firstFire`).
-/

namespace JobRoster.Cron

/-- A step after which another one follows has a value only if both have one. -/
theorem bind_eq_ok_iff {ε α β : Type} {x : Except ε α} {f : α → Except ε β} {b : β} :
    x >>= f = .ok b ↔ ∃ a, x = .ok a ∧ f a = .ok b := by
  cases x with
  | error e => simp [bind, Except.bind]
  | ok a => simp [bind, Except.bind]

/-! ### What is read -/

/-- The values that items denote are values of the field, in ascending order. -/
theorem Field.sublist_of_admitted {f : Field} {items : List Item} {values : List Nat}
    (h : f.admitted items = .ok values) : values.Sublist f.values := by
  obtain ⟨sets, -, h⟩ := bind_eq_ok_iff.1 h
  cases h
  exact List.filter_sublist

namespace Schedule

variable {s : Schedule}

/-- **The values of a schedule are values of its fields**, in ascending order. -/
def Ranged (s : Schedule) : Prop := ∀ f : Field, (s.admitted f).Sublist f.values

theorem sublist_of_readField {f : Field} {cs : List Char} {found : List Nat × List Char}
    (h : readField f cs = .ok found) : found.1.Sublist f.values := by
  unfold readField at h
  split at h
  · cases h
  · split at h
    · next hvalues =>
      cases h
      exact Field.sublist_of_admitted hvalues
    · cases h

theorem sublist_readYears (cs : List Char) : (readYears cs).1.Sublist Field.years.values := by
  unfold readYears
  split
  · next found hfound => exact sublist_of_readField hfound
  · exact List.Sublist.refl _

theorem eq_of_readEnd {cs : List Char} {s' : Schedule} (h : readEnd s cs = .ok s') : s' = s := by
  unfold readEnd at h
  split at h <;> cases h
  rfl

theorem ranged_of_readFields {cs : List Char} (h : readFields cs = .ok s) : s.Ranged := by
  obtain ⟨⟨_, cs₁⟩, hseconds, h⟩ := bind_eq_ok_iff.1 h
  obtain ⟨⟨_, cs₂⟩, hminutes, h⟩ := bind_eq_ok_iff.1 h
  obtain ⟨⟨_, cs₃⟩, hhours, h⟩ := bind_eq_ok_iff.1 h
  obtain ⟨⟨_, cs₄⟩, hdaysOfMonth, h⟩ := bind_eq_ok_iff.1 h
  obtain ⟨⟨_, cs₅⟩, hmonths, h⟩ := bind_eq_ok_iff.1 h
  obtain ⟨⟨_, cs₆⟩, hdaysOfWeek, h⟩ := bind_eq_ok_iff.1 h
  obtain rfl := eq_of_readEnd h
  intro f
  cases f with
  | seconds => exact sublist_of_readField hseconds
  | minutes => exact sublist_of_readField hminutes
  | hours => exact sublist_of_readField hhours
  | daysOfMonth => exact sublist_of_readField hdaysOfMonth
  | months => exact sublist_of_readField hmonths
  | daysOfWeek => exact sublist_of_readField hdaysOfWeek
  | years => exact sublist_readYears cs₆

theorem ranged_of_mem_keywords {entry : String × Schedule} (h : entry ∈ keywords) : entry.2.Ranged := by
  intro f
  simp only [keywords, List.mem_cons, List.not_mem_nil, or_false] at h
  -- a keyword admits all values of a field or one of them
  rcases h with rfl | rfl | rfl | rfl | rfl <;> cases f <;>
    simp [admitted, Field.mem_values, Field.low, Field.high]

theorem ranged_of_keyword {cs : List Char} {found : Schedule × List Char} (h : keyword? cs = some found) :
    found.1.Ranged := by
  obtain ⟨entry, hentry, h⟩ := List.exists_of_findSome?_eq_some h
  split at h
  · cases h
    exact ranged_of_mem_keywords hentry
  · cases h

/-- **What is read off an expression are values of its fields.** -/
theorem ranged_of_read {cs : List Char} (h : read cs = .ok s) : s.Ranged := by
  unfold read at h
  split at h
  · next hkeyword =>
    rw [eq_of_readEnd h]
    exact ranged_of_keyword hkeyword
  · exact ranged_of_readFields h

theorem ranged_of_readCron {expression : String} (h : readCron expression = .ok s) : s.Ranged := by
  unfold readCron at h
  dsimp only at h
  split at h
  · next hread =>
    cases h
    exact ranged_of_read hread
  · cases h

/-! ### The search -/

theorem Ranged.le_high (hs : s.Ranged) {f : Field} {v : Nat} (hv : v ∈ s.admitted f) : v ≤ f.high :=
  (Field.mem_values.1 ((hs f).subset hv)).2

/-- The search of a day ends with a time that is put together from admitted parts. -/
theorem parts_of_timeFrom {time found : Nat} (h : s.timeFrom time = some found) :
    time ≤ found ∧ ∃ hour ∈ s.hours, ∃ minute ∈ s.minutes, ∃ second ∈ s.seconds,
      found = hour * 3600 + minute * 60 + second := by
  obtain ⟨hour, hhour, h⟩ := List.exists_of_findSome?_eq_some h
  obtain ⟨minute, hminute, h⟩ := List.exists_of_findSome?_eq_some h
  obtain ⟨second, hsecond, h⟩ := List.exists_of_findSome?_eq_some h
  split at h
  · next hle =>
    cases h
    exact ⟨hle, hour, hhour, minute, hminute, second, hsecond, rfl⟩
  · cases h

/-- The search of a day ends with an admitted time of the day. -/
theorem Ranged.admitsTime_of_timeFrom (hs : s.Ranged) {time found : Nat} (h : s.timeFrom time = some found) :
    found < 86400 ∧ s.admitsTime found = true := by
  obtain ⟨-, hour, hhour, minute, hminute, second, hsecond, rfl⟩ := parts_of_timeFrom h
  have hhour' : hour ≤ 23 := hs.le_high (f := .hours) hhour
  have hminute' : minute ≤ 59 := hs.le_high (f := .minutes) hminute
  have hsecond' : second ≤ 59 := hs.le_high (f := .seconds) hsecond
  have hparts : (hour * 3600 + minute * 60 + second) / 3600 = hour ∧
      (hour * 3600 + minute * 60 + second) / 60 % 60 = minute ∧
        (hour * 3600 + minute * 60 + second) % 60 = second := by omega
  refine ⟨by omega, ?_⟩
  unfold admitsTime
  rw [hparts.1, hparts.2.1, hparts.2.2]
  simp [hhour, hminute, hsecond]

/-- The search through the days ends on an admitted day, with what the search of the day ends with. -/
theorem day_of_secondFrom {second found : Nat} (h : s.secondFrom second = some found) :
    second ≤ found ∧ ∃ day time from', s.admitsDay (day : Nat) = true ∧ s.timeFrom from' = some time ∧
      found = day * 86400 + time := by
  obtain ⟨day, hday, h⟩ := List.exists_of_findSome?_eq_some h
  rw [List.mem_range'_1] at hday
  split at h
  · next hadmits =>
    obtain ⟨time, htime, rfl⟩ := Option.map_eq_some_iff.1 h
    refine ⟨?_, day, time, _, hadmits, htime, rfl⟩
    have hle := (parts_of_timeFrom htime).1
    split at hle <;> omega
  · cases h

/-- **What the search ends with**: a whole second after the one from which it starts, not before the window and not
after it. -/
theorem exists_of_firstFire {after start t : Instant} {stop : Option Instant}
    (h : s.firstFire after start stop = .ok (some t)) :
    ∃ before found, s.secondFrom (max ((after.later before).second + 1) start.ceilSecond).toNat = some found ∧
      t.second = found ∧ t.nanos = 0 ∧ ∀ last ∈ stop, t ≤ last := by
  obtain ⟨before, -, h⟩ := bind_eq_ok_iff.1 h
  obtain ⟨next, -, h⟩ := bind_eq_ok_iff.1 h
  split at h
  · cases h
  · rw [show ∀ x y : Option Instant, (pure x : Except Overflow _) = .ok y ↔ x = y from
      fun x y => ⟨Except.ok.inj, congrArg _⟩, Option.filter_eq_some_iff, Option.bind_eq_some_iff] at h
    obtain ⟨⟨found, hfound, ht⟩, hstop⟩ := h
    obtain ⟨hsecond, hnanos⟩ := Instant.of?_eq_some_iff.1 ht
    refine ⟨before, found, hfound, hsecond, hnanos, ?_⟩
    simpa [Option.all_eq_true] using hstop

/-- **A fire time lies in its window.** -/
theorem within_of_firstFire {after start t : Instant} {stop : Option Instant}
    (h : s.firstFire after start stop = .ok (some t)) : start ≤ t ∧ ∀ last ∈ stop, t ≤ last := by
  obtain ⟨before, found, hfound, hsecond, hnanos, hstop⟩ := exists_of_firstFire h
  refine ⟨?_, hstop⟩
  have hle := (day_of_secondFrom hfound).1
  have hceil : start.ceilSecond ≤ t.second := by omega
  rw [Instant.le_iff]
  unfold Instant.ceilSecond at hceil
  split at hceil <;> omega

/-- The search ends with an instant of the schedule. -/
theorem Ranged.mem_of_secondFrom (hs : s.Ranged) {start found : Nat} (h : s.secondFrom start = some found) {t : Instant}
    (hsecond : t.second = found) (hnanos : t.nanos = 0) : t ∈ s := by
  obtain ⟨-, day, time, from', hday, htime, rfl⟩ := day_of_secondFrom h
  obtain ⟨hlt, hadmits⟩ := hs.admitsTime_of_timeFrom htime
  have hdayNumber : t.dayNumber = day := by
    unfold Instant.dayNumber Instant.perDay
    omega
  have hsecondOfDay : t.secondOfDay = time := by
    unfold Instant.secondOfDay Instant.perDay
    omega
  rw [mem_iff, hdayNumber, hsecondOfDay]
  exact ⟨hnanos, hday, hadmits⟩

/-- **A fire time is an instant of the schedule.** -/
theorem Ranged.mem_of_firstFire (hs : s.Ranged) {after start t : Instant} {stop : Option Instant}
    (h : s.firstFire after start stop = .ok (some t)) : t ∈ s := by
  obtain ⟨before, found, hfound, hsecond, hnanos, -⟩ := exists_of_firstFire h
  exact hs.mem_of_secondFrom hfound hsecond hnanos

end Schedule

end JobRoster.Cron
