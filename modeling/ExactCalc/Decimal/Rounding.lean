import ExactCalc.Decimal.Basic

/-! Rounding a number to what a decimal can hold, a half going to the even neighbour. -/

set_option autoImplicit false

namespace ExactCalc

def roundsUp (quotient remainder divisor : Nat) : Bool :=
  divisor < 2 * remainder || (2 * remainder == divisor && quotient % 2 == 1)

/-- The integer nearest to `dividend / divisor`, of two equally near the even one. -/
def divHalfEven (dividend divisor : Nat) : Nat :=
  let quotient := dividend / divisor
  if roundsUp quotient (dividend % divisor) divisor then quotient + 1 else quotient

namespace Magnitude

def shorten (m : Magnitude) (count : Nat) : Magnitude :=
  ⟨divHalfEven m.mantissa (Nat.pow 10 count), m.scale - count⟩

def FitsAfter (m : Magnitude) (count : Nat) : Prop :=
  m.scale ≤ count + Decimal.maxScale ∧ m.mantissa / Nat.pow 10 count < Decimal.mantissaBound

instance (m : Magnitude) (count : Nat) : Decidable (m.FitsAfter count) :=
  inferInstanceAs (Decidable (_ ∧ _))

/-- Give up as few decimals as the bounds ask for, and one more when rounding carries to the
bound. There is no answer when no decimal is left to give up. -/
def fit? (m : Magnitude) : Option Magnitude :=
  match (List.range (m.scale + 1)).find? (m.FitsAfter ·) with
  | none => none
  | some count =>
    let short := m.shorten count
    if short.mantissa < Decimal.mantissaBound then some short
    else if short.scale = 0 then none
    else some (short.shorten 1)

end Magnitude

end ExactCalc
