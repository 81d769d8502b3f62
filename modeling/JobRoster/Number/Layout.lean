import JobRoster.Number.Shortest

/-!
# How a number is laid out

The digits of a number are laid out in positional notation or with an exponent. What is chosen when is the
content of a `Layout`; there are two of them here, one for data and one for names.
-/

namespace JobRoster

/-- The decisions of a number format. -/
structure Layout where
  /-- A number with a greater count of digits before the point is written with an exponent. -/
  maxWhole : Option Nat
  /-- A number with more zeros than these between the point and its first digit is written with an exponent. -/
  maxZeros : Option Nat
  /-- Whether a whole number in positional notation ends in `.0`. -/
  keepPoint : Bool
  /-- Which of two equally near digit strings is written. -/
  tie : Tie

namespace Layout

/-- Numbers within data: positional up to sixteen whole digits and four zeros after the point, always with a point or
an exponent, and even where two digit strings are equally near. -/
def data : Layout := { maxWhole := some 16, maxZeros := some 4, keepPoint := true, tie := .toEven }

/-- Numbers within names: always positional, whole numbers without a point, and the greater of two equally near digit
strings. -/
def plain : Layout := { maxWhole := none, maxZeros := none, keepPoint := false, tie := .up }

/-- The digits of a decimal without the zeros at its end, and the count of digits before the point: negative for
zeros between the point and the first digit. -/
def digitsAndPoint (d : Decimal) : List Char × Int :=
  let all := Nat.toDigits 10 d.digits
  let kept := (all.reverse.dropWhile (· == '0')).reverse
  (if kept.isEmpty then ['0'] else kept, all.length + d.exponent)

/-- The exponent of scientific notation, with its sign. -/
def signedExponent (e : Int) : List Char :=
  (if e < 0 then '-' else '+') :: Nat.toDigits 10 e.natAbs

/-- Whether a number with its point after `point` digits is written in positional notation. -/
def positional (l : Layout) (point : Int) : Bool :=
  (match l.maxWhole with | some n => decide (point ≤ n) | none => true) &&
    (match l.maxZeros with | some n => decide (-(n : Int) ≤ point) | none => true)

/-- The text of a magnitude. -/
def magnitude (l : Layout) (d : Decimal) : List Char :=
  let (digits, point) := digitsAndPoint d
  let n := digits.length
  if l.positional point then
    if point ≤ 0 then ['0', '.'] ++ List.replicate (-point).toNat '0' ++ digits
    else if n ≤ point.toNat then
      digits ++ List.replicate (point.toNat - n) '0' ++ (if l.keepPoint then ['.', '0'] else [])
    else digits.take point.toNat ++ ['.'] ++ digits.drop point.toNat
  else
    digits.take 1 ++ (if n = 1 then [] else '.' :: digits.drop 1) ++ ['e'] ++ signedExponent (point - 1)

/-- The text of a number: the sign of a negative one, of minus zero too, and its magnitude. -/
def write (l : Layout) (x : Binary64) : String :=
  String.ofList ((if x.negative then ['-'] else []) ++ l.magnitude (x.shortest l.tie))

end Layout

end JobRoster
