import JobRoster.Number.Binary64

/-!
# The shortest digits of a number

The decimal digits that stand for a finite binary64 number: of all digit strings that read back as the number,
the shortest, and of those the one nearest to it; which of two that are equally near is up to the caller. A magnitude
and the two ends of the interval of values that round to it are multiples of one power of ten, so each comparison is
one of natural numbers.
-/

namespace JobRoster

/-- A positive magnitude in decimal: `digits * 10 ^ exponent`. -/
structure Decimal where
  /-- The digits, read as one number. -/
  digits : Nat
  /-- The power of ten of the last digit. -/
  exponent : Int
  deriving DecidableEq, Repr

/-- Which of two neighbouring multiples stands for a value half way between them. -/
inductive Tie where
  /-- The even one. -/
  | toEven
  /-- The greater one. -/
  | up
  deriving DecidableEq, Repr

/-- The multiple for a value half way between a multiple and the next. -/
def Tie.choose : Tie → Nat → Nat
  | .toEven, lower => if lower % 2 = 0 then lower else lower + 1
  | .up, lower => lower + 1

namespace Binary64

/-- A magnitude with the ends of the interval of values that round to it, all in units of one power of ten. -/
structure Neighbourhood where
  /-- The lower end. -/
  low : Nat
  /-- The magnitude. -/
  value : Nat
  /-- The upper end. -/
  high : Nat
  /-- Whether the ends round to the magnitude too. -/
  closed : Bool
  /-- The power of ten that is the unit. -/
  unit : Int

/-- Whether a value in the unit of the neighbourhood rounds to its magnitude. -/
def Neighbourhood.holds (n : Neighbourhood) (v : Nat) : Bool :=
  if n.closed then n.low ≤ v && v ≤ n.high else n.low < v && v < n.high

/-- The neighbourhood of a number. Its ends lie half way to the next magnitudes; the one below is half as far
when the magnitude is the first of its run. Ends belong to the interval when the rank is even. -/
def neighbourhood (x : Binary64) : Neighbourhood :=
  let below := if x.significand = run && run < x.rank then 1 else 2
  let q := x.exponent - 2
  let factor := if 0 ≤ q then Nat.pow 2 q.toNat else Nat.pow 5 (-q).toNat
  { low := (4 * x.significand - below) * factor
    value := 4 * x.significand * factor
    high := (4 * x.significand + 2) * factor
    closed := x.rank % 2 = 0
    unit := if 0 ≤ q then 0 else q }

/-- The multiple of `grid` that rounds to the magnitude, if one of the two next to it does, and the nearer of two. -/
def Neighbourhood.onGrid (n : Neighbourhood) (tie : Tie) (grid : Nat) : Option Nat :=
  let floor := n.value / grid
  let down := n.holds (floor * grid)
  let up := n.holds ((floor + 1) * grid)
  if down && up then
    let gap := n.value - floor * grid
    let rest := (floor + 1) * grid - n.value
    some (if gap < rest then floor else if rest < gap then floor + 1 else tie.choose floor)
  else if down then some floor
  else if up then some (floor + 1)
  else none

/-- The shortest digits of the magnitude of a number; zero is the digit 0. -/
def shortest (x : Binary64) (tie : Tie) : Decimal :=
  if x.rank = 0 then ⟨0, 0⟩
  else
    let n := x.neighbourhood
    let length := (Nat.toDigits 10 n.value).length
    let found := (List.range length).findSome? fun k =>
      let dropped := length - (k + 1)
      (n.onGrid tie (Nat.pow 10 dropped)).map fun digits => (⟨digits, n.unit + dropped⟩ : Decimal)
    found.getD ⟨n.value, n.unit⟩

end Binary64

end JobRoster
