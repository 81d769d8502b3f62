import JobRoster.Proofs.Cron.Fire
import JobRoster.Proofs.Instant.Calendar
import Mathlib.Order.Bounds.Defs

/-!
# The first slot

An instant of a schedule is a slot of it. The search for a fire time goes through the days, hours, minutes and seconds
in ascending order, so that it finds the least of the slots from a second on (`Ranged.least_of_secondFrom`); no slot
lies outside the days that it goes through, since the years of a schedule end with 2100 (`Ranged.day_bounds`). A
slot is a whole second: it comes after an instant, and not before another one, exactly if it comes not before the second
with which the search begins (`Ranged.le_second_iff`).

A search is in reach (`InReach`) where its steps stay in the range of instants and it does not start before the year 0.
Then so is any later one that does not start in the last second of all (`InReach.of_le`).

Main statement: `firstFire_exact`. The result of a search that is in reach is the first slot in the window.
-/

namespace JobRoster

/-! ### The last instant -/

namespace Instant

/-- A second after any moment is no leap second. -/
theorem nanos_shift_perSecond (t : Instant) : (t.shift perSecond).2 < 1000000000 := by
  have := t.nanos_lt
  cases h : t.isLeap with
  | false =>
    rw [shift_of_not_isLeap h]
    simp only [carry, perSecond]
    omega
  | true =>
    have hn : perSecond ≤ t.nanos := isLeap_iff.1 h
    rw [shift_of_isLeap h (by omega)]
    simp only [carry, perSecond]
    omega

/-- A second can be added to all instants but those of the last second. -/
theorem exists_add_perSecond_iff {t : Instant} : (∃ u, t.add perSecond = .ok u) ↔ t.second < last.second := by
  have hfirst := t.first_le
  have hsecond := t.shift_perSecond
  have hnanos := t.nanos_shift_perSecond
  have hrange : InRange (t.shift perSecond).1 (t.shift perSecond).2 ↔ t.second < last.second := by
    rw [hsecond]
    unfold InRange last
    dsimp only
    omega
  rw [← hrange]
  constructor
  · rintro ⟨u, hu⟩
    rw [add_eq_ok_iff] at hu
    rw [← hu]
    exact u.inRange
  · intro h
    exact ⟨⟨_, _, h.1, h.2.1, h.2.2.1, h.2.2.2⟩, add_eq_ok_iff.2 rfl⟩

theorem second_of_add_perSecond {t u : Instant} (h : t.add perSecond = .ok u) : u.second = t.second + 1 := by
  rw [← shift_perSecond]
  exact congrArg Prod.fst (add_eq_ok_iff.1 h)

/-- The year 0 begins 719528 days before 1970. -/
theorem zero_le_year_iff {t : Instant} : 0 ≤ t.date.year ↔ -62167219200 ≤ t.second := by
  have hfirst : Date.toDays ⟨0, 1, 1⟩ = -719528 := by decide
  rw [date, Date.le_year_ofDays_iff, hfirst, dayNumber, perDay]
  omega

end Instant

namespace Cron

/-! ### Searches in ascending order -/

/-- A search through numbers in ascending order ends with the least of those that have something to offer. -/
theorem least_of_findSome? {β : Type} {numbers : List Nat} (h : numbers.Pairwise (· < ·)) {f : Nat → Option β} {b : β}
    (hb : numbers.findSome? f = some b) :
    ∃ a ∈ numbers, f a = some b ∧ ∀ x ∈ numbers, (f x).isSome = true → a ≤ x := by
  obtain ⟨before, a, behind, rfl, ha, hnone⟩ := List.findSome?_eq_some_iff.1 hb
  refine ⟨a, by simp, ha, fun x hx hsome => ?_⟩
  obtain hx | hx := List.mem_append.1 hx
  · rw [hnone x hx] at hsome
    cases hsome
  · obtain rfl | hx := List.mem_cons.1 hx
    · exact le_refl _
    · exact (List.rel_of_pairwise_cons (List.pairwise_append.1 h).2.1 hx).le

namespace Schedule

variable {s : Schedule}

/-- The values of a schedule stand in ascending order. -/
theorem Ranged.pairwise (hs : s.Ranged) (f : Field) : (s.admitted f).Pairwise (· < ·) :=
  List.Pairwise.sublist (hs f) List.pairwise_lt_range'

/-! ### Within a day -/

/-- A time of day is put together from its hour, its minute and its second. -/
theorem time_eq (time : Nat) : time = time / 3600 * 3600 + time / 60 % 60 * 60 + time % 60 := by omega

/-- The parts of an admitted time are admitted. -/
theorem admitsTime_iff {time : Nat} : s.admitsTime time = true ↔
    time / 3600 ∈ s.hours ∧ time / 60 % 60 ∈ s.minutes ∧ time % 60 ∈ s.seconds := by
  simp [admitsTime, and_assoc]

/-- The search of a day finds something if there is something to be found. -/
theorem isSome_timeFrom {start time : Nat} (ht : s.admitsTime time = true) (hle : start ≤ time) :
    (s.timeFrom start).isSome = true := by
  obtain ⟨hhour, hminute, hsecond⟩ := admitsTime_iff.1 ht
  unfold timeFrom
  simp only [List.findSome?_isSome_iff]
  exact ⟨_, hhour, _, hminute, _, hsecond, by rw [← time_eq, if_pos hle]; rfl⟩

/-- **The search of a day finds the first admitted time.** -/
theorem Ranged.timeFrom_le (hs : s.Ranged) {start time found : Nat} (h : s.timeFrom start = some found)
    (ht : s.admitsTime time = true) (hle : start ≤ time) : found ≤ time := by
  obtain ⟨hhour, hminute, hsecond⟩ := admitsTime_iff.1 ht
  have hself : (if start ≤ time / 3600 * 3600 + time / 60 % 60 * 60 + time % 60 then
      some (time / 3600 * 3600 + time / 60 % 60 * 60 + time % 60) else none).isSome = true := by
    rw [← time_eq, if_pos hle]
    rfl
  obtain ⟨hour, hhour', h, hhours⟩ := least_of_findSome? (hs.pairwise .hours) h
  obtain ⟨minute, hminute', h, hminutes⟩ := least_of_findSome? (hs.pairwise .minutes) h
  obtain ⟨second, hsecond', h, hseconds⟩ := least_of_findSome? (hs.pairwise .seconds) h
  have hminute_le : minute ≤ 59 := hs.le_high (f := .minutes) hminute'
  have hsecond_le : second ≤ 59 := hs.le_high (f := .seconds) hsecond'
  obtain ⟨-, h⟩ := Option.ite_none_right_eq_some.1 h
  cases h
  have hhour_le : hour ≤ time / 3600 := by
    refine hhours _ hhour ?_
    simp only [List.findSome?_isSome_iff]
    exact ⟨_, hminute, _, hsecond, hself⟩
  obtain hlt | rfl := Nat.lt_or_eq_of_le hhour_le
  · omega
  have hminute_le' : minute ≤ time / 60 % 60 := by
    refine hminutes _ hminute ?_
    simp only [List.findSome?_isSome_iff]
    exact ⟨_, hsecond, hself⟩
  obtain hlt | rfl := Nat.lt_or_eq_of_le hminute_le'
  · omega
  have hsecond_le' : second ≤ time % 60 := hseconds _ hsecond hself
  omega

/-! ### From day to day -/

/-- The days of a schedule lie from 1970 to 2100. -/
theorem Ranged.day_bounds (hs : s.Ranged) {days : Int} (h : s.admitsDay days = true) : 0 ≤ days ∧ days ≤ lastDay := by
  simp only [admitsDay, Bool.and_eq_true, decide_eq_true_eq, List.contains_iff_mem] at h
  obtain ⟨⟨⟨⟨hnonneg, hyear⟩, -⟩, -⟩, -⟩ := h
  obtain ⟨hlow, hhigh⟩ := Field.mem_values.1 ((hs .years).subset hyear)
  have hfirst : (1970 : Int) ≤ (Date.ofDays days).year := by
    simp only [Field.low] at hlow
    omega
  have hlast : ¬ (2101 : Int) ≤ (Date.ofDays days).year := by
    simp only [Field.high] at hhigh
    omega
  rw [Date.le_year_ofDays_iff] at hfirst hlast
  have hepoch : Date.toDays ⟨1970, 1, 1⟩ = 0 := by decide
  have hend : Date.toDays ⟨2101, 1, 1⟩ = lastDay + 1 := by decide
  omega

/-- A slot, by its day and its time of day, both counted from zero. -/
theorem Ranged.exists_day_time (hs : s.Ranged) {t : Instant} (ht : t ∈ s) :
    ∃ day time : Nat, t.second = day * 86400 + time ∧ time < 86400 ∧ day ≤ lastDay ∧
      s.admitsDay day = true ∧ s.admitsTime time = true := by
  obtain ⟨-, hday, htime⟩ := mem_iff.1 ht
  obtain ⟨hlow, hhigh⟩ := hs.day_bounds hday
  obtain ⟨day, hnumber⟩ := Int.eq_ofNat_of_zero_le hlow
  refine ⟨day, t.secondOfDay, ?_, ?_, by omega, hnumber ▸ hday, htime⟩ <;>
    unfold Instant.secondOfDay Instant.dayNumber Instant.perDay at *
  · omega
  · omega

/-- The search through the days finds something on an admitted day with an admitted time to come. -/
theorem isSome_day {start day time : Nat} (hday : s.admitsDay day = true)
    (htime : s.admitsTime time = true) (hle : start ≤ day * 86400 + time) :
    (if s.admitsDay day then (s.timeFrom (if day = start / 86400 then start % 86400 else 0)).map
      fun time => day * 86400 + time else none).isSome = true := by
  rw [if_pos hday, Option.isSome_map]
  refine isSome_timeFrom htime ?_
  split <;> omega

/-- **The search finds the first slot** from a second on, if there is one. -/
theorem Ranged.least_of_secondFrom (hs : s.Ranged) {start : Nat} {t : Instant} (ht : t ∈ s)
    (hle : (start : Int) ≤ t.second) : ∃ found, s.secondFrom start = some found ∧ (found : Int) ≤ t.second := by
  obtain ⟨day, time, hsecond, htime, hday, hadmitsDay, hadmitsTime⟩ := hs.exists_day_time ht
  have hle' : start ≤ day * 86400 + time := by omega
  have hmem : day ∈ List.range' (start / 86400) (lastDay + 1 - start / 86400) := by
    rw [List.mem_range'_1]
    omega
  have hsome : (s.secondFrom start).isSome = true :=
    List.findSome?_isSome_iff.2 ⟨day, hmem, isSome_day hadmitsDay hadmitsTime hle'⟩
  obtain ⟨found, hfound⟩ := Option.isSome_iff_exists.1 hsome
  refine ⟨found, hfound, ?_⟩
  obtain ⟨day', -, h, hleast⟩ := least_of_findSome? List.pairwise_lt_range' hfound
  have hday_le := hleast day hmem (isSome_day hadmitsDay hadmitsTime hle')
  obtain ⟨-, h⟩ := Option.ite_none_right_eq_some.1 h
  obtain ⟨time', htime', rfl⟩ := Option.map_eq_some_iff.1 h
  obtain hlt | rfl := Nat.lt_or_eq_of_le hday_le
  · have := (hs.admitsTime_of_timeFrom htime').1
    omega
  · have hle_time : time' ≤ time := by
      refine hs.timeFrom_le htime' hadmitsTime ?_
      split <;> omega
    omega

/-- What the search finds is the least of the slots from a second on. -/
theorem Ranged.isLeast_of_secondFrom (hs : s.Ranged) {start found : Nat} (h : s.secondFrom start = some found) :
    ∃ t, Instant.ofSeconds? found = some t ∧ IsLeast {u | u ∈ s ∧ (start : Int) ≤ u.second} t := by
  obtain ⟨hle, day, time, _, hday, htime, hfound⟩ := day_of_secondFrom h
  have hday_le := (hs.day_bounds hday).2
  have htime_lt := (hs.admitsTime_of_timeFrom htime).1
  unfold lastDay at hday_le
  have hrange : Instant.InRange found 0 := ⟨by omega, by omega, by decide, by simp⟩
  let t : Instant := ⟨found, 0, hrange.1, hrange.2.1, hrange.2.2.1, hrange.2.2.2⟩
  refine ⟨t, Instant.of?_eq_some_iff.2 ⟨rfl, rfl⟩, ⟨hs.mem_of_secondFrom h rfl rfl, Int.ofNat_le.2 hle⟩, ?_⟩
  intro u hu
  obtain ⟨found', hfound', hle'⟩ := hs.least_of_secondFrom hu.1 hu.2
  obtain rfl : found = found' := Option.some.inj (h.symm.trans hfound')
  have hnanos := (mem_iff.1 hu.1).1
  rw [Instant.le_iff, show t.second = found from rfl, show t.nanos = 0 from rfl]
  omega

/-! ### In a window -/

end Schedule

end Cron

namespace Instant

/-- A second before a moment, the second before has begun, unless the moment lies in a leap second. -/
theorem shift_neg_perSecond (t : Instant) :
    t.shift (-perSecond) = if t.isLeap then (t.second, t.nanos - perSecond) else (t.second - 1, t.nanos) := by
  have hlt := t.nanos_lt
  cases h : t.isLeap with
  | false =>
    have hn : ¬ perSecond ≤ t.nanos := isLeap_eq_false_iff.1 h
    rw [shift_of_not_isLeap h, if_neg Bool.false_ne_true]
    unfold carry perSecond at *
    ext
    · dsimp only
      omega
    · dsimp only
      omega
  | true =>
    have hn : perSecond ≤ t.nanos := isLeap_iff.1 h
    have hback : ¬ (perSecond : Int) ≤ t.nanos + -perSecond := by
      unfold perSecond at *
      omega
    rw [shift, if_neg fun h => hback h.2, if_pos rfl]
    unfold carry perSecond at *
    ext
    · dsimp only
      omega
    · dsimp only
      omega

theorem second_of_sub_perSecond {t u : Instant} (h : t.sub perSecond = .ok u) :
    u.second = if t.isLeap then t.second else t.second - 1 := by
  have hshift := congrArg Prod.fst (sub_eq_ok_iff.1 h)
  rw [shift_neg_perSecond] at hshift
  split at hshift <;> simpa [*] using hshift

/-- A step of a second back leads before the first whole second that is not before a moment. -/
theorem second_lt_of_sub_perSecond {t u : Instant} (h : t.sub perSecond = .ok u) : u.second < t.ceilSecond := by
  rw [second_of_sub_perSecond h, ceilSecond]
  cases hleap : t.isLeap with
  | false =>
    rw [if_neg Bool.false_ne_true]
    split <;> omega
  | true =>
    have hnanos : perSecond ≤ t.nanos := isLeap_iff.1 hleap
    have hne : t.nanos ≠ 0 := by
      unfold perSecond at hnanos
      omega
    rw [if_pos rfl, if_neg hne]
    omega

theorem second_later (a b : Instant) : (a.later b).second = max a.second b.second := by
  unfold later
  split
  · next h =>
    have := le_iff.1 h
    omega
  · next h =>
    rw [le_iff] at h
    omega

/-- A whole second comes after a moment exactly if its number does. -/
theorem lt_iff_of_nanos_eq_zero {a t : Instant} (ht : t.nanos = 0) : a < t ↔ a.second < t.second := by
  rw [lt_iff]
  omega

/-- A whole second comes not before a moment exactly if it comes not before the next whole second. -/
theorem le_iff_of_nanos_eq_zero {a t : Instant} (ht : t.nanos = 0) : a ≤ t ↔ a.ceilSecond ≤ t.second := by
  rw [le_iff, ceilSecond]
  split <;> omega

protected theorem le_antisymm {a b : Instant} (h : a ≤ b) (h' : b ≤ a) : a = b := by
  rw [le_iff] at h h'
  have heq : a.second = b.second ∧ a.nanos = b.nanos := by omega
  exact Option.some.inj ((of?_eq_some_iff.2 heq).symm.trans b.of?_second_nanos)

protected theorem not_lt {a b : Instant} : ¬ a < b ↔ b ≤ a := Int.not_lt

end Instant

namespace Cron.Schedule

variable {s : Schedule} {after start before : Instant} {stop r : Option Instant}

/-- **The first slot** after one instant, not before a second one, if it is not after a third one, where that is given. -/
def FirstSlot (s : Schedule) (after start : Instant) (stop : Option Instant) : Option Instant → Prop
  | some t => IsLeast {u | u ∈ s ∧ after < u ∧ start ≤ u} t ∧ ∀ last ∈ stop, t ≤ last
  | none => ∀ u ∈ s, after < u → start ≤ u → ∃ last ∈ stop, last < u

/-- There is only one first slot. -/
theorem FirstSlot.unique {r' : Option Instant} (h : s.FirstSlot after start stop r)
    (h' : s.FirstSlot after start stop r') : r = r' := by
  cases r with
  | some t =>
    cases r' with
    | some t' => rw [Instant.le_antisymm (h.1.2 h'.1.1) (h'.1.2 h.1.1)]
    | none =>
      obtain ⟨last, hlast, hlt⟩ := h' t h.1.1.1 h.1.1.2.1 h.1.1.2.2
      exact absurd (h.2 last hlast) (Int.not_le.2 hlt)
  | none =>
    cases r' with
    | some t' =>
      obtain ⟨last, hlast, hlt⟩ := h t' h'.1.1.1 h'.1.1.2.1 h'.1.1.2.2
      exact absurd (h'.2 last hlast) (Int.not_le.2 hlt)
    | none => rfl

/-- The second with which a search begins. -/
def searchStart (after before start : Instant) : Nat :=
  (max ((after.later before).second + 1) start.ceilSecond).toNat

/-- A slot comes after an instant and not before the window exactly if it comes not before the second with which the
search begins. -/
theorem Ranged.le_second_iff (hs : s.Ranged) (hbefore : start.sub Instant.perSecond = .ok before) {t : Instant}
    (ht : t ∈ s) : (searchStart after before start : Int) ≤ t.second ↔ after < t ∧ start ≤ t := by
  have hnanos := (mem_iff.1 ht).1
  have hback := Instant.second_lt_of_sub_perSecond hbefore
  obtain ⟨day, time, hsecond, -⟩ := hs.exists_day_time ht
  rw [Instant.lt_iff_of_nanos_eq_zero hnanos, Instant.le_iff_of_nanos_eq_zero hnanos, searchStart, Instant.second_later]
  omega

/-- Where the steps of the search stay in range, it goes through with it. -/
theorem firstFire_eq {next : Instant} (hbefore : start.sub Instant.perSecond = .ok before)
    (hnext : (after.later before).add Instant.perSecond = .ok next) (hyear : 0 ≤ next.date.year) :
    s.firstFire after start stop = .ok (((s.secondFrom (searchStart after before start)).bind fun n =>
      Instant.ofSeconds? n).filter fun t => stop.all fun last => t ≤ last) := by
  unfold firstFire
  rw [hbefore]
  simp only [bind, Except.bind, hnext, Int.not_lt.2 hyear, if_false]
  rfl

/-- Where the search goes through, its steps have stayed in range. -/
theorem steps_of_firstFire (h : s.firstFire after start stop = .ok r) :
    ∃ before, start.sub Instant.perSecond = .ok before ∧
      after.second < Instant.last.second ∧ before.second < Instant.last.second := by
  obtain ⟨before, hbefore, hrest⟩ := bind_eq_ok_iff.1 h
  obtain ⟨next, hnext, -⟩ := bind_eq_ok_iff.1 hrest
  have hlast := Instant.exists_add_perSecond_iff.1 ⟨next, hnext⟩
  rw [Instant.second_later] at hlast
  exact ⟨before, hbefore, by omega, by omega⟩

/-- **The search ends with the first slot.** -/
theorem Ranged.firstSlot (hs : s.Ranged) (hbefore : start.sub Instant.perSecond = .ok before) :
    s.FirstSlot after start stop (((s.secondFrom (searchStart after before start)).bind fun n =>
      Instant.ofSeconds? n).filter fun t => stop.all fun last => t ≤ last) := by
  cases hfound : s.secondFrom (searchStart after before start) with
  | none =>
    intro u hu hafter hstart
    obtain ⟨found, hsome, -⟩ := hs.least_of_secondFrom hu ((hs.le_second_iff hbefore hu).2 ⟨hafter, hstart⟩)
    cases hfound.symm.trans hsome
  | some found =>
    obtain ⟨t, ht, hleast⟩ := hs.isLeast_of_secondFrom hfound
    have hset : {u | u ∈ s ∧ (searchStart after before start : Int) ≤ u.second} =
        {u | u ∈ s ∧ after < u ∧ start ≤ u} := Set.ext fun u => and_congr_right fun hu => hs.le_second_iff hbefore hu
    rw [hset] at hleast
    rw [Option.bind_some, ht, Option.filter_some]
    by_cases hstop : stop.all (fun last => t ≤ last) = true
    · rw [if_pos hstop]
      exact ⟨hleast, by simpa [Option.all_eq_true] using hstop⟩
    · rw [if_neg hstop]
      obtain ⟨last, hlast, hlt⟩ : ∃ last ∈ stop, last < t := by
        simpa [Option.all_eq_true, ← Instant.not_lt] using hstop
      intro u hu hafter hstart
      exact ⟨last, hlast, Int.lt_of_lt_of_le hlt (hleast.2 ⟨hu, hafter, hstart⟩)⟩

/-- **A search is in reach**: its steps stay in the range of instants, and it does not start before the year 0. -/
def InReach (after start : Instant) : Prop :=
  ∃ before next, start.sub Instant.perSecond = .ok before ∧ (after.later before).add Instant.perSecond = .ok next ∧
    0 ≤ next.date.year

/-- Whether a search is in reach depends on the later one of the two instants from which it starts. -/
theorem inReach_iff (hbefore : start.sub Instant.perSecond = .ok before) : InReach after start ↔
    max after.second before.second < Instant.last.second ∧ -62167219201 ≤ max after.second before.second := by
  rw [← Instant.second_later]
  constructor
  · rintro ⟨before', next, hbefore', hnext, hyear⟩
    cases hbefore.symm.trans hbefore'
    rw [Instant.zero_le_year_iff, Instant.second_of_add_perSecond hnext] at hyear
    exact ⟨Instant.exists_add_perSecond_iff.1 ⟨next, hnext⟩, by omega⟩
  · rintro ⟨hlast, hyear⟩
    obtain ⟨next, hnext⟩ := Instant.exists_add_perSecond_iff.2 hlast
    refine ⟨before, next, hbefore, hnext, ?_⟩
    rw [Instant.zero_le_year_iff, Instant.second_of_add_perSecond hnext]
    omega

/-- A search that starts later is in reach as well, if it does not start in the last second of all. -/
theorem InReach.of_le {now : Instant} (h : InReach after start) (hle : after ≤ now)
    (hnow : now.second < Instant.last.second) : InReach now start := by
  obtain ⟨before, _, hbefore, -⟩ := id h
  have hle := Instant.le_iff.1 hle
  rw [inReach_iff hbefore] at h ⊢
  omega

/-- A search that starts with a slot or later is in reach, if it does not start in the last second of all. -/
theorem Ranged.inReach (hs : s.Ranged) {t : Instant} (ht : t ∈ s) (hle : t ≤ after)
    (hafter : after.second < Instant.last.second) (hbefore : start.sub Instant.perSecond = .ok before)
    (hlast : before.second < Instant.last.second) : InReach after start := by
  obtain ⟨day, time, hsecond, -⟩ := hs.exists_day_time ht
  have hle := Instant.le_iff.1 hle
  rw [inReach_iff hbefore]
  omega

/-- **A search that is in reach ends with the first slot.** -/
theorem Ranged.exists_firstFire (hs : s.Ranged) (h : InReach after start) (stop : Option Instant) :
    ∃ r, s.firstFire after start stop = .ok r ∧ s.FirstSlot after start stop r := by
  obtain ⟨before, next, hbefore, hnext, hyear⟩ := h
  exact ⟨_, firstFire_eq hbefore hnext hyear, hs.firstSlot hbefore⟩

/-- **The search for a fire time is exact**: of a schedule that was read, it has a result where its steps stay in the
range of instants and it does not start before the year 0, and the result is the first slot after an instant in the
window. -/
theorem firstFire_exact {expression : String} (hread : readCron expression = .ok s) {next : Instant}
    (hbefore : start.sub Instant.perSecond = .ok before)
    (hnext : (after.later before).add Instant.perSecond = .ok next) (hyear : 0 ≤ next.date.year) :
    (∃ r, s.firstFire after start stop = .ok r) ∧
      ∀ r, s.firstFire after start stop = .ok r ↔ s.FirstSlot after start stop r := by
  have hreach : InReach after start := ⟨before, next, hbefore, hnext, hyear⟩
  obtain ⟨r, hr, hslot⟩ := (ranged_of_readCron hread).exists_firstFire hreach stop
  refine ⟨⟨r, hr⟩, fun r' => ⟨fun h => ?_, fun h => ?_⟩⟩
  · cases hr.symm.trans h
    exact hslot
  · rw [hr, hslot.unique h]

/-- A search from 10:00:00, itself a slot, in a window that begins half a second before 11:00:00 and ends with it. -/
theorem firstFire_exact_at_edges : ∃ (s : Schedule) (after start stop before next : Instant),
    (readCron "0 0 * * * ?" = .ok s ∧ start.sub Instant.perSecond = .ok before ∧
      (after.later before).add Instant.perSecond = .ok next ∧ 0 ≤ next.date.year) ∧
        (after ∈ s ∧ start.nanos ≠ 0 ∧ s.firstFire after start (some stop) = .ok (some stop)) ∧
          (∃ r, s.firstFire after start (some stop) = .ok r) ∧
            ∀ r, s.firstFire after start (some stop) = .ok r ↔ s.FirstSlot after start (some stop) r := by
  let s : Schedule := ⟨[0], [0], Field.hours.values, Field.daysOfMonth.values, Field.months.values,
    Field.daysOfWeek.values, Field.years.values⟩
  let after : Instant := ⟨1893492000, 0, by decide, by decide, by decide, by decide⟩
  let start : Instant := ⟨1893495599, 500000000, by decide, by decide, by decide, by decide⟩
  let stop : Instant := ⟨1893495600, 0, by decide, by decide, by decide, by decide⟩
  let before : Instant := ⟨1893495598, 500000000, by decide, by decide, by decide, by decide⟩
  have hread : readCron "0 0 * * * ?" = .ok s := by decide +kernel
  have hbefore : start.sub Instant.perSecond = .ok before := by decide
  have hnext : (after.later before).add Instant.perSecond = .ok start := by decide
  have hyear : 0 ≤ start.date.year := by decide
  exact ⟨s, after, start, stop, before, start, ⟨hread, hbefore, hnext, hyear⟩,
    ⟨by decide +kernel, by decide, by decide +kernel⟩, firstFire_exact hread hbefore hnext hyear⟩

end Cron.Schedule

end JobRoster
