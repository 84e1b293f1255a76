/-! Decimal digits and the numbers they stand for. -/

set_option autoImplicit false

namespace ExactCalc

def digitValue (digit : Char) : Nat := digit.toNat - '0'.toNat

def digitsValue (digits : List Char) : Nat :=
  digits.foldl (fun value digit => value * 10 + digitValue digit) 0

/-- The last `width` digits of a number, with leading zeros. -/
def fixedDigits : Nat → Nat → List Char
  | 0, _ => []
  | width + 1, number => fixedDigits width (number / 10) ++ [Nat.digitChar (number % 10)]

end ExactCalc
