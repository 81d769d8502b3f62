/-!
# Digits

What digits stand for: the value of one digit to a base of up to sixteen, and the number of a list of digits, the
first of which counts most.
-/

namespace JobRoster.Text

/-- The value of a digit. The letters `a` to `f` of either case are the digits from ten to fifteen. -/
def digitValue? (c : Char) : Option Nat :=
  if c.isDigit then some (c.toNat - '0'.toNat)
  else if 'a' ≤ c ∧ c ≤ 'f' then some (c.toNat - 'a'.toNat + 10)
  else if 'A' ≤ c ∧ c ≤ 'F' then some (c.toNat - 'A'.toNat + 10)
  else none

/-- The number that a list of digits to a base stands for. -/
def numberOf (base : Nat) (digits : List Char) : Nat :=
  digits.foldl (fun n c => base * n + (digitValue? c).getD 0) 0

end JobRoster.Text
