import JobRoster.Instant.Date
import Mathlib.Tactic.Common
import Mathlib.Tactic.IntervalCases

/-!
# The calendar

Every day has a date, and the count of days to the date is the count from which it was found. A day is located by its
cycle of 400 years, its century within the cycle, its four years within the century, its year within the four, and the
day of the year, all counted from a 1 March (`Date.Located`); the date is read off that (`Date.Located.ofDays`).

Main statements:

* `Date.toDays_ofDays` and `Date.valid_ofDays`: the date of a day exists, and names the day.
* `Date.le_year_ofDays_iff`: a year has begun on a day exactly if its 1 January is not after the day.
-/

namespace JobRoster.Date

/-! ### Where a day lies -/

/-- **A day lies** in a cycle, in a century of the cycle, in four years of the century, and in one of those years. A
year is a day longer when it is the last of four years, unless they are the last of a century that is not the last of
its cycle. -/
structure Located (days cycle : Int) (century four year day : Nat) : Prop where
  /-- A cycle has four centuries. -/
  century_le : century ≤ 3
  /-- A century has 25 times four years. -/
  four_le : four ≤ 24
  /-- The years of four. -/
  year_le : year ≤ 3
  /-- The days of a year. -/
  day_le : day ≤ 365
  /-- Only some years have a leap day. -/
  leap : day = 365 → year = 3 ∧ (four = 24 → century = 3)
  /-- The days are counted together. -/
  days_eq : days + epochOffset = cycle * cycleDays + (36524 * century + 1461 * four + 365 * year + day : Nat)

/-- Every day lies somewhere. -/
theorem exists_located (days : Int) : ∃ cycle century four year day, Located days cycle century four year day := by
  have hlt : (days + epochOffset) % cycleDays < 146097 := Int.emod_lt_of_pos _ (by decide)
  have hnonneg : 0 ≤ (days + epochOffset) % cycleDays := Int.emod_nonneg _ (by decide)
  have hday := Int.mul_ediv_add_emod (days + epochOffset) cycleDays
  obtain ⟨n, hn⟩ := Int.eq_ofNat_of_zero_le hnonneg
  rw [hn] at hday hlt
  obtain ⟨c, r, hc, hr, hnr⟩ : ∃ c r, c ≤ 3 ∧ (r < 36524 ∨ c = 3 ∧ r = 36524) ∧ n = 36524 * c + r :=
    ⟨min (n / 36524) 3, n - 36524 * min (n / 36524) 3, by omega, by omega, by omega⟩
  obtain ⟨q, b, hq, hb, hrb⟩ : ∃ q b, q ≤ 24 ∧ b ≤ 1460 ∧ r = 1461 * q + b :=
    ⟨r / 1461, r % 1461, by omega, by omega, by omega⟩
  obtain ⟨y, d, hy, hd, hbd⟩ : ∃ y d, y ≤ 3 ∧ (d ≤ 364 ∨ y = 3 ∧ d = 365) ∧ b = 365 * y + d :=
    ⟨min (b / 365) 3, b - 365 * min (b / 365) 3, by omega, by omega, by omega⟩
  refine ⟨(days + epochOffset) / cycleDays, c, q, y, d, hc, hq, hy, by omega, by omega, ?_⟩
  rw [Int.mul_comm cycleDays] at hday
  generalize (days + epochOffset) / cycleDays * cycleDays = past at hday ⊢
  omega

/-- The year of the cycle in which a day of the cycle lies. -/
theorem yearOfCycle_eq {c q y d n : Nat} (hc : c ≤ 3) (hq : q ≤ 24) (hy : y ≤ 3) (hd : d ≤ 365)
    (hleap : d = 365 → y = 3 ∧ (q = 24 → c = 3)) (hn : n = 36524 * c + 1461 * q + 365 * y + d) :
    (n - n / 1460 + n / 36524 - n / 146096) / 365 = 100 * c + 4 * q + y := by
  have hlong : n / 1460 = 25 * c + q + if 24 * c + q + 365 * y + d < 1460 then 0 else 1 := by
    split
    · exact Nat.div_eq_of_lt_le (by omega) (by omega)
    · exact Nat.div_eq_of_lt_le (by omega) (by omega)
  have hshort : n / 36524 = c + n / 146096 := by
    by_cases hlast : n = 146096
    · obtain rfl : c = 3 := by omega
      subst hlast
      rfl
    · rw [Nat.div_eq_of_lt (show n < 146096 by omega)]
      exact Nat.div_eq_of_lt_le (by omega) (by omega)
  rw [hlong, hshort]
  generalize n / 146096 = last
  split
  · exact Nat.div_eq_of_lt_le (by omega) (by omega)
  · exact Nat.div_eq_of_lt_le (by omega) (by omega)

/-- The days of the cycle before a year of it. -/
theorem daysBeforeYear_eq {c q y : Nat} (hq : q ≤ 24) (hy : y ≤ 3) :
    365 * (100 * c + 4 * q + y) + (100 * c + 4 * q + y) / 4 - (100 * c + 4 * q + y) / 100 =
      36524 * c + 1461 * q + 365 * y := by
  have hfours : (100 * c + 4 * q + y) / 4 = 25 * c + q := Nat.div_eq_of_lt_le (by omega) (by omega)
  have hcenturies : (100 * c + 4 * q + y) / 100 = c := Nat.div_eq_of_lt_le (by omega) (by omega)
  omega

variable {days cycle : Int} {c q y d : Nat}

/-- **The date of a day that is located.** The year from 1 March on ends with two months of the next year. -/
theorem Located.ofDays (h : Located days cycle c q y d) :
    ofDays days =
      { year := 400 * cycle + (100 * c + 4 * q + y : Nat) + if d < 306 then 0 else 1
        month := if d < 306 then (5 * d + 2) / 153 + 3 else (5 * d + 2) / 153 - 9
        day := d - daysBeforeMonth ((5 * d + 2) / 153) + 1 } := by
  have hday := h.days_eq
  generalize hn : 36524 * c + 1461 * q + 365 * y + d = n at hday
  have hlt : n < 146097 := by
    have := h.century_le
    have := h.four_le
    have := h.year_le
    have := h.day_le
    have := h.leap
    omega
  have hcycle : (days + epochOffset) / cycleDays = cycle := by
    rw [hday]
    unfold cycleDays
    omega
  have hdayOfCycle : ((days + epochOffset) % cycleDays).toNat = n := by
    rw [hday]
    unfold cycleDays
    omega
  have hyear := yearOfCycle_eq h.century_le h.four_le h.year_le h.day_le h.leap hn.symm
  have hdayOfYear : n - (365 * (100 * c + 4 * q + y) + (100 * c + 4 * q + y) / 4 - (100 * c + 4 * q + y) / 100) = d := by
    rw [daysBeforeYear_eq h.four_le h.year_le]
    omega
  unfold Date.ofDays
  simp only [hcycle, hdayOfCycle, hyear, hdayOfYear]
  by_cases hd : d < 306
  · have hmonth : (5 * d + 2) / 153 < 10 := by omega
    simp only [hmonth, hd, if_true, Date.mk.injEq, and_true]
    rw [if_neg (by omega)]
    omega
  · have hmonth : ¬ (5 * d + 2) / 153 < 10 := by omega
    have := h.day_le
    simp only [hmonth, hd, if_false, Date.mk.injEq, and_true]
    rw [if_pos (by omega)]
    omega

/-- The days before a month are not more than the days before a day in it. -/
theorem daysBeforeMonth_le (d : Nat) : daysBeforeMonth ((5 * d + 2) / 153) ≤ d := by
  unfold daysBeforeMonth
  omega

/-- **The date of a day names the day.** -/
theorem toDays_ofDays (days : Int) : (ofDays days).toDays = days := by
  obtain ⟨cycle, c, q, y, d, h⟩ := exists_located days
  have hcentury := h.century_le
  have hfour := h.four_le
  have hyear := h.year_le
  have hcycle : (400 * cycle + (100 * c + 4 * q + y : Nat)) / 400 = cycle := by omega
  have hyearOfCycle : ((400 * cycle + (100 * c + 4 * q + y : Nat)) % 400).toNat = 100 * c + 4 * q + y := by omega
  have hmonth := daysBeforeMonth_le d
  have hdays := h.days_eq
  rw [h.ofDays]
  unfold toDays
  by_cases hd : d < 306
  · have hlate : ¬ (5 * d + 2) / 153 + 3 ≤ 2 := by omega
    simp only [hd, hlate, if_true, if_false, Int.add_zero, Nat.add_sub_cancel, hcycle, hyearOfCycle,
      daysBeforeYear_eq hfour hyear]
    omega
  · have hday := h.day_le
    have hearly : (5 * d + 2) / 153 - 9 ≤ 2 := by omega
    have hback : (5 * d + 2) / 153 - 9 + 9 = (5 * d + 2) / 153 := by omega
    simp only [hd, hearly, hback, if_true, if_false, Int.add_sub_cancel, Nat.add_sub_cancel, hcycle, hyearOfCycle,
      daysBeforeYear_eq hfour hyear]
    omega

/-- The year that ends with the last days of a longer year is a leap year. -/
theorem Located.isLeapYear (h : Located days cycle c q y 365) :
    isLeapYear (400 * cycle + (100 * c + 4 * q + y : Nat) + 1) = true := by
  obtain ⟨rfl, hcentury⟩ := h.leap rfl
  have hfour := h.four_le
  have hfours : (400 * cycle + (100 * c + 4 * q + 3 : Nat) + 1) % 4 = 0 := by omega
  have hcenturies : (400 * cycle + (100 * c + 4 * q + 3 : Nat) + 1) % 100 ≠ 0 ∨
      (400 * cycle + (100 * c + 4 * q + 3 : Nat) + 1) % 400 = 0 := by
    by_cases hq : q = 24
    · have := hcentury hq
      right
      omega
    · left
      omega
  rw [Date.isLeapYear, Bool.and_eq_true, Bool.or_eq_true, decide_eq_true_eq, decide_eq_true_eq, decide_eq_true_eq]
  exact ⟨hfours, hcenturies⟩

/-- **The date of a day exists.** -/
theorem valid_ofDays (days : Int) : (ofDays days).Valid := by
  obtain ⟨cycle, c, q, y, d, h⟩ := exists_located days
  have hday := h.day_le
  rw [h.ofDays]
  have hmonths : (5 * d + 2) / 153 ≤ 11 := by omega
  generalize hm : (5 * d + 2) / 153 = m at hmonths
  by_cases hd : d < 306
  · simp only [hd, if_true, Int.add_zero]
    have hspring : m ≤ 9 := by omega
    unfold Valid daysInMonth daysBeforeMonth
    interval_cases m <;> simp <;> omega
  · simp only [hd, if_false]
    have hwinter : 10 ≤ m := by omega
    interval_cases m
    · unfold Valid daysInMonth daysBeforeMonth
      simp
      omega
    · -- the last month is February, which has a day more in a leap year
      change 1 ≤ 2 ∧ 2 ≤ 12 ∧ 1 ≤ d - 337 + 1 ∧ d - 337 + 1 ≤ if Date.isLeapYear _ then 29 else 28
      refine ⟨by decide, by decide, by omega, ?_⟩
      by_cases hleap : d = 365
      · subst hleap
        rw [if_pos h.isLeapYear]
      · split <;> omega

/-- A later year of the cycle begins later, by nearly a year at least. -/
theorem daysBeforeYear_lt {v z : Nat} (h : v < z) :
    365 * v + v / 4 - v / 100 + 364 ≤ 365 * z + z / 4 - z / 100 := by
  omega

/-- **A year has begun** on a day exactly if its 1 January is not after the day. -/
theorem le_year_ofDays_iff {year days : Int} : year ≤ (ofDays days).year ↔ toDays ⟨year, 1, 1⟩ ≤ days := by
  obtain ⟨cycle, c, q, y, d, h⟩ := exists_located days
  have hday := h.day_le
  have hdays := h.days_eq
  have hz : 100 * c + 4 * q + y ≤ 399 := by
    have := h.century_le
    have := h.four_le
    have := h.year_le
    omega
  simp only [h.ofDays]
  rw [← daysBeforeYear_eq h.four_le h.year_le] at hdays
  generalize 100 * c + 4 * q + y = z at hdays hz ⊢
  -- the year that begins with the 1 March before has the number `v` in the cycle `k`
  obtain ⟨k, v, hv, rfl⟩ : ∃ (k : Int) (v : Nat), v ≤ 399 ∧ year = 400 * k + v + 1 :=
    ⟨(year - 1) / 400, ((year - 1) % 400).toNat, by omega, by omega⟩
  have hfirst : toDays ⟨400 * k + v + 1, 1, 1⟩ =
      k * cycleDays + (365 * v + v / 4 - v / 100 + 306 : Nat) - epochOffset := by
    have hcycle : (400 * k + v) / 400 = k := by omega
    have hyearOfCycle : ((v : Int) % 400).toNat = v := by omega
    simp [toDays, daysBeforeMonth, hcycle, hyearOfCycle]
  rw [hfirst]
  have hlast : 365 * z + z / 4 - z / 100 ≤ 145731 := by omega
  have hlast' : 365 * v + v / 4 - v / 100 ≤ 145731 := by omega
  have horder : v < z ∧ 365 * v + v / 4 - v / 100 + 364 ≤ 365 * z + z / 4 - z / 100 ∨
      v = z ∧ 365 * v + v / 4 - v / 100 = 365 * z + z / 4 - z / 100 ∨
        z < v ∧ 365 * z + z / 4 - z / 100 + 364 ≤ 365 * v + v / 4 - v / 100 := by
    obtain hlt | heq | hgt := Nat.lt_trichotomy v z
    · exact .inl ⟨hlt, daysBeforeYear_lt hlt⟩
    · exact .inr (.inl ⟨heq, by rw [heq]⟩)
    · exact .inr (.inr ⟨hgt, daysBeforeYear_lt hgt⟩)
  generalize 365 * v + v / 4 - v / 100 = before at hlast' horder ⊢
  generalize 365 * z + z / 4 - z / 100 = before' at hlast horder hdays
  unfold cycleDays at *
  split
  · omega
  · omega

end JobRoster.Date
