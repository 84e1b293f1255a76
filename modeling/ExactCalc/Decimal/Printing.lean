import ExactCalc.Decimal.Basic
import ExactCalc.Text.Digits

/-! Writing a decimal: sign, at least one integer digit, and as many decimals as its scale. -/

set_option autoImplicit false

namespace ExactCalc

def Magnitude.print (m : Magnitude) : List Char :=
  let power := Nat.pow 10 m.scale
  let whole := Nat.toDigits 10 (m.mantissa / power)
  if m.scale = 0 then whole
  else whole ++ '.' :: fixedDigits m.scale (m.mantissa % power)

/-- The sign is written of a zero as well. -/
def Decimal.print (d : Decimal) : List Char :=
  let unsigned := Magnitude.print ⟨d.mantissa, d.scale⟩
  if d.negative then '-' :: unsigned else unsigned

end ExactCalc
