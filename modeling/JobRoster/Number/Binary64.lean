/-!
# Finite binary64 numbers

A finite binary64 number is a sign and a magnitude. The magnitudes, in ascending order, are numbered from
zero, and a magnitude is kept as its number, the `rank`: rank `k` below `2 ^ 52` is `k` units of `2 ^ (-1074)`,
and from there on each run of `2 ^ 52` ranks doubles the unit. Equal ranks are equal magnitudes, so the
representation is canonical; only the two zeros are numerically equal and yet apart.

All arithmetic is exact on natural numbers, followed by one rounding to the nearest magnitude, a tie going to
the even rank. Powers are written with `Nat.pow`, which means the same whatever else is imported.
-/

namespace JobRoster

/-- A finite binary64 number. -/
structure Binary64 where
  /-- Whether the sign is minus. -/
  negative : Bool
  /-- The place of the magnitude among all finite magnitudes. -/
  rank : Nat
  /-- The magnitude is finite. -/
  rank_lt : rank < 2047 * Nat.pow 2 52 := by decide
  deriving DecidableEq

namespace Binary64

/-- The number of ranks that share one unit. -/
def run : Nat := Nat.pow 2 52

/-- Zero, with a plus sign. -/
def zero : Binary64 := ⟨false, 0, by decide⟩

instance : Inhabited Binary64 := ⟨zero⟩

/-- The magnitude in units of `2 ^ x.exponent`. -/
def significand (x : Binary64) : Nat :=
  if x.rank < run then x.rank else x.rank % run + run

/-- The power of two that is the unit of the magnitude. -/
def exponent (x : Binary64) : Int :=
  if x.rank < run then -1074 else (x.rank / run : Nat) - 1075

/-- The same number with the sign turned. -/
def negate (x : Binary64) : Binary64 := { x with negative := !x.negative }

/-- The same number, its zero without a minus sign. -/
def dropZeroSign (x : Binary64) : Binary64 := if x.rank = 0 then zero else x

/-- Numerical equality: the two zeros are equal. -/
def same (x y : Binary64) : Bool := x.dropZeroSign = y.dropZeroSign

/-- `num / den` to the nearest natural number, a tie going to the even one. -/
def divideToEven (num den : Nat) : Nat :=
  let q := num / den
  let r := num % den
  if 2 * r < den then q
  else if den < 2 * r then q + 1
  else if q % 2 = 0 then q else q + 1

/-- The greatest `k` with `2 ^ k ≤ num / den`, for positive `num` and `den`. -/
def floorLog2 (num den : Nat) : Int :=
  let k : Int := (Nat.log2 num : Int) - Nat.log2 den
  let fits := if 0 ≤ k then den * Nat.pow 2 k.toNat ≤ num else den ≤ num * Nat.pow 2 (-k).toNat
  if fits then k else k - 1

/-- The rank of the magnitude nearest to `num / den`, the ranks being continued above the finite ones. -/
def rankOfRatio (num den : Nat) : Nat :=
  if num = 0 then 0
  else
    let unit := max (floorLog2 num den - 52) (-1074)
    let rounded :=
      if 0 ≤ unit then divideToEven num (den * Nat.pow 2 unit.toNat)
      else divideToEven (num * Nat.pow 2 (-unit).toNat) den
    (unit + 1074).toNat * run + rounded

/-- The number nearest to `num / den`, if that is finite. -/
def ofRatio? (negative : Bool) (num den : Nat) : Option Binary64 :=
  if h : rankOfRatio num den < 2047 * Nat.pow 2 52 then some ⟨negative, rankOfRatio num den, h⟩ else none

/-- The magnitude as a ratio of natural numbers. -/
def ratio (x : Binary64) : Nat × Nat :=
  if 0 ≤ x.exponent then (x.significand * Nat.pow 2 x.exponent.toNat, 1)
  else (x.significand, Nat.pow 2 (-x.exponent).toNat)

/-- The product, if it is finite. -/
def mul? (x y : Binary64) : Option Binary64 :=
  ofRatio? (x.negative != y.negative) (x.ratio.1 * y.ratio.1) (x.ratio.2 * y.ratio.2)

/-- The quotient, if it is finite; `y` is not zero. -/
def div? (x y : Binary64) : Option Binary64 :=
  ofRatio? (x.negative != y.negative) (x.ratio.1 * y.ratio.2) (x.ratio.2 * y.ratio.1)

/-- The number nearest to a natural number, if that is finite. -/
def ofNat? (n : Nat) : Option Binary64 := ofRatio? false n 1

/-- The power of ten, if it is finite; the greatest finite one has the exponent 308. -/
def tenPower? (n : Nat) : Option Binary64 := if n ≤ 308 then ofNat? (Nat.pow 10 n) else none

/-- `x` divided by `y` the given number of times, each quotient rounded. Zero is divided no further. -/
def divideTimes? (x y : Binary64) : Nat → Option Binary64
  | 0 => some x
  | k + 1 => if x.rank = 0 then some x else (x.div? y).bind fun q => divideTimes? q y k

/-- `x / 10 ^ n` for a positive `n`: divided by `10 ^ 308` as long as the rest of `n` is greater than 308, and
then by the power of ten that is left. -/
def divideByTenPower? (x : Binary64) (n : Nat) : Option Binary64 := do
  let whole ← tenPower? 308
  let rest ← tenPower? (n - 308 * ((n - 1) / 308))
  let y ← divideTimes? x whole ((n - 1) / 308)
  y.div? rest

/-- The numeral `digits * 10 ^ exponent`: its digits are rounded to a number first, and then multiplied or
divided by the power of ten. `none` if that leaves the finite numbers. -/
def ofNumeral? (digits : Nat) (exponent : Int) : Option Binary64 :=
  match ofNat? digits with
  | none => none
  | some x =>
    if exponent < 0 then divideByTenPower? x (-exponent).toNat
    else if x.rank = 0 then some x
    else (tenPower? exponent.toNat).bind x.mul?

theorem same_iff {x y : Binary64} : same x y = true ↔ x.dropZeroSign = y.dropZeroSign := by
  simp [same]

end Binary64

end JobRoster
