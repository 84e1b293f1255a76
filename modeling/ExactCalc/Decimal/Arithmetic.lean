import ExactCalc.Decimal.Rounding

/-! Sum, difference and product of decimals; `none` is an overflow.

Each result keeps as many decimals as its exact value is written with, as far as they fit.
-/

set_option autoImplicit false

namespace ExactCalc.Decimal

/-- The sum. A zero operand gives the other one as it stands, decimals included. -/
def add? (a b : Decimal) : Option Decimal :=
  if a.isZero then some b
  else if b.isZero then some a
  else
    let scale := max a.scale b.scale
    let sum := a.coefficientAt scale + b.coefficientAt scale
    (Magnitude.fit? ⟨sum.natAbs, scale⟩).map (·.withSign (sum < 0))

def sub? (a b : Decimal) : Option Decimal := a.add? b.opposite

def shortBound : Nat := Nat.pow 2 32

/-- A product of short mantissas with more decimals than this is zero without further ado. -/
def shortProductScale : Nat := 47

/-- The product. A product of short mantissas that rounds to zero is a positive zero; that of
longer ones keeps its sign. -/
def mul? (a b : Decimal) : Option Decimal :=
  if a.isZero || b.isZero then some zero
  else
    let product : Magnitude := ⟨a.mantissa * b.mantissa, a.scale + b.scale⟩
    let negative := a.negative ^^ b.negative
    if a.mantissa < shortBound ∧ b.mantissa < shortBound then
      if shortProductScale < product.scale then some zero
      else product.fit?.map (·.signed negative)
    else product.fit?.map (·.withSign negative)

end ExactCalc.Decimal
