import JobRoster.Instant.Date

/-!
# Instants

An instant is a moment of universal time with nanosecond precision, between the first moment of the year -262143
and the last of the year 262142. Any minute may end in a leap second. Which minutes do is not recorded: a leap second
exists for the moments that lie in it, and a distance counts a leap second only when it is measured from within.

Arithmetic that would leave the range has no result, and what a program does then is crash with the text of
`Overflow`. The main statements are `add_eq_ok_iff` and `sub_eq_ok_iff`, which say where a step leads, and `le_iff`
for the order.
-/

namespace JobRoster

/-- A moment of universal time. -/
structure Instant where
  /-- The whole seconds since the first moment of 1970, no leap second among them. -/
  second : Int
  /-- The nanoseconds since the beginning of that second; from `10 ^ 9` on they lie in the leap second after it. -/
  nanos : Nat
  /-- The moment is not before the first moment of the year -262143. -/
  first_le : -8334601228800 ≤ second
  /-- The moment is not after the last second of the year 262142. -/
  le_last : second ≤ 8210266876799
  /-- The moment lies in the second or in the leap second after it. -/
  nanos_lt : nanos < 2000000000
  /-- A leap second comes after the last second of a minute. -/
  leap_at_end : 1000000000 ≤ nanos → second % 60 = 59
  deriving DecidableEq

/-- Arithmetic that leaves the range of instants. -/
inductive Overflow where
  /-- A sum lies outside. -/
  | sum
  /-- A difference lies outside. -/
  | difference
  deriving DecidableEq, Repr

/-- The text of an overflow. -/
def Overflow.message : Overflow → String
  | .sum => "`DateTime + TimeDelta` overflowed"
  | .difference => "`DateTime - TimeDelta` overflowed"

namespace Instant

/-- The nanoseconds of a second. -/
def perSecond : Nat := 1000000000

/-- The seconds of a day. -/
def perDay : Int := 86400

/-- The moments that exist, by their second and the nanoseconds since it began. -/
def InRange (second : Int) (nanos : Nat) : Prop :=
  -8334601228800 ≤ second ∧ second ≤ 8210266876799 ∧ nanos < 2000000000 ∧
    (1000000000 ≤ nanos → second % 60 = 59)

instance (second : Int) (nanos : Nat) : Decidable (InRange second nanos) := by unfold InRange; infer_instance

/-- The moment `nanos` nanoseconds after the beginning of a second, if it exists. -/
def of? (second : Int) (nanos : Nat) : Option Instant :=
  if h : InRange second nanos then some ⟨second, nanos, h.1, h.2.1, h.2.2.1, h.2.2.2⟩ else none

/-- The beginning of a second, if it is in range. -/
def ofSeconds? (second : Int) : Option Instant := of? second 0

/-- The place of a moment in the order of time, each second being given room for a leap second after it. -/
def place (t : Instant) : Int := t.second * 2000000000 + t.nanos

instance : LE Instant := ⟨fun a b => a.place ≤ b.place⟩
instance : LT Instant := ⟨fun a b => a.place < b.place⟩
instance (a b : Instant) : Decidable (a ≤ b) := inferInstanceAs (Decidable (a.place ≤ b.place))
instance (a b : Instant) : Decidable (a < b) := inferInstanceAs (Decidable (a.place < b.place))

/-- The first moment in range. -/
def first : Instant := ⟨-8334601228800, 0, by decide, by decide, by decide, by decide⟩

/-- The last moment in range, at the end of a leap second. -/
def last : Instant := ⟨8210266876799, 1999999999, by decide, by decide, by decide, by decide⟩

instance : Inhabited Instant := ⟨⟨0, 0, by decide, by decide, by decide, by decide⟩⟩

/-- The later of two moments. -/
def later (a b : Instant) : Instant := if a ≤ b then b else a

/-- Whether a moment lies in a leap second. -/
def isLeap (t : Instant) : Bool := perSecond ≤ t.nanos

/-- The second in which a count of nanoseconds ends, counted from the beginning of a second, and what is left of the
count. -/
def carry (second nanos : Int) : Int × Nat := (second + nanos / perSecond, (nanos % perSecond).toNat)

/-- The second and the nanoseconds that lie `distance` nanoseconds after a moment. The leap second in which a moment
lies takes a second of its own. -/
def shift (t : Instant) (distance : Int) : Int × Nat :=
  let nanos := t.nanos + distance
  if t.isLeap ∧ perSecond ≤ nanos then
    if nanos < 2 * perSecond then (t.second, nanos.toNat) else carry t.second (nanos - perSecond)
  else carry t.second nanos

/-- The moment `distance` nanoseconds later. -/
def add (t : Instant) (distance : Int) : Except Overflow Instant :=
  match of? (t.shift distance).1 (t.shift distance).2 with
  | some u => .ok u
  | none => .error .sum

/-- The moment `distance` nanoseconds earlier. -/
def sub (t : Instant) (distance : Int) : Except Overflow Instant :=
  match of? (t.shift (-distance)).1 (t.shift (-distance)).2 with
  | some u => .ok u
  | none => .error .difference

/-- The first whole second not before the moment. -/
def ceilSecond (t : Instant) : Int := if t.nanos = 0 then t.second else t.second + 1

/-- The day of the moment, as a count of days since 1970-01-01. -/
def dayNumber (t : Instant) : Int := t.second / perDay

/-- The whole seconds since the day began. -/
def secondOfDay (t : Instant) : Nat := (t.second % perDay).toNat

/-- The date of the moment. -/
def date (t : Instant) : Date := Date.ofDays t.dayNumber

theorem inRange (t : Instant) : InRange t.second t.nanos := ⟨t.first_le, t.le_last, t.nanos_lt, t.leap_at_end⟩

theorem of?_second_nanos (t : Instant) : of? t.second t.nanos = some t := by
  simp [of?, t.inRange]

theorem of?_eq_some_iff {second : Int} {nanos : Nat} {t : Instant} :
    of? second nanos = some t ↔ t.second = second ∧ t.nanos = nanos := by
  constructor
  · intro h
    unfold of? at h
    split at h
    · cases h; exact ⟨rfl, rfl⟩
    · cases h
  · rintro ⟨rfl, rfl⟩; exact of?_second_nanos t

theorem of?_eq_none_iff {second : Int} {nanos : Nat} : of? second nanos = none ↔ ¬ InRange second nanos := by
  unfold of?; split <;> simp_all

/-- The order of time goes by seconds first. -/
theorem le_iff {a b : Instant} : a ≤ b ↔ a.second < b.second ∨ a.second = b.second ∧ a.nanos ≤ b.nanos := by
  have := a.nanos_lt
  have := b.nanos_lt
  change a.place ≤ b.place ↔ _
  unfold place
  omega

theorem lt_iff {a b : Instant} : a < b ↔ a.second < b.second ∨ a.second = b.second ∧ a.nanos < b.nanos := by
  have := a.nanos_lt
  have := b.nanos_lt
  change a.place < b.place ↔ _
  unfold place
  omega

protected theorem le_trans {a b c : Instant} (h : a ≤ b) (h' : b ≤ c) : a ≤ c := Int.le_trans h h'

protected theorem le_of_lt {a b : Instant} (h : a < b) : a ≤ b := Int.le_of_lt h

/-- Going `n` nanoseconds back is impossible exactly if that leaves the range. -/
theorem sub_eq_ok_iff {t u : Instant} {n : Int} : t.sub n = .ok u ↔ (u.second, u.nanos) = t.shift (-n) := by
  rw [Prod.ext_iff, ← of?_eq_some_iff, sub]
  split <;> simp_all

/-- Going `n` nanoseconds on is impossible exactly if that leaves the range. -/
theorem add_eq_ok_iff {t u : Instant} {n : Int} : t.add n = .ok u ↔ (u.second, u.nanos) = t.shift n := by
  rw [Prod.ext_iff, ← of?_eq_some_iff, add]
  split <;> simp_all

theorem isLeap_iff {t : Instant} : t.isLeap = true ↔ perSecond ≤ t.nanos := decide_eq_true_iff

theorem isLeap_eq_false_iff {t : Instant} : t.isLeap = false ↔ ¬ perSecond ≤ t.nanos := decide_eq_false_iff_not

/-- From a moment outside leap seconds, distances are plain differences of nanoseconds. -/
theorem shift_of_not_isLeap {t : Instant} (h : t.isLeap = false) (n : Int) :
    t.shift n = carry t.second (t.nanos + n) := by simp [shift, h]

/-- On the way out of a leap second to a later moment, the rest of the leap second is passed. -/
theorem shift_of_isLeap {t : Instant} (h : t.isLeap = true) {n : Int} (hn : 2 * perSecond ≤ t.nanos + n) :
    t.shift n = carry t.second (t.nanos + n - perSecond) := by
  have : (perSecond : Int) ≤ t.nanos + n := by unfold perSecond at *; omega
  simp [shift, h, this, Int.not_lt.2 hn]

/-- A second after any moment, be it in a leap second, the next whole second has begun. -/
theorem shift_perSecond (t : Instant) : (t.shift perSecond).1 = t.second + 1 := by
  have := t.nanos_lt
  cases h : t.isLeap with
  | false =>
    have hn : ¬ perSecond ≤ t.nanos := isLeap_eq_false_iff.1 h
    rw [shift_of_not_isLeap h]
    simp only [carry, perSecond] at *
    omega
  | true =>
    have hn : perSecond ≤ t.nanos := isLeap_iff.1 h
    rw [shift_of_isLeap h (by omega)]
    simp only [carry, perSecond] at *
    omega

/-- Going back does not lead to a later moment. -/
theorem sub_le {t u : Instant} {n : Int} (hn : 0 ≤ n) (h : t.sub n = .ok u) : u ≤ t := by
  rw [sub_eq_ok_iff, Prod.ext_iff] at h
  rw [le_iff]
  cases hleap : t.isLeap with
  | false =>
    have hnanos : ¬ perSecond ≤ t.nanos := isLeap_eq_false_iff.1 hleap
    rw [shift_of_not_isLeap hleap] at h
    simp only [carry, perSecond] at h hnanos
    omega
  | true =>
    have := t.nanos_lt
    simp only [shift, hleap, true_and] at h
    split at h
    · split at h <;> simp only [carry, perSecond] at * <;> omega
    · simp only [carry, perSecond] at *
      omega

end Instant

end JobRoster
