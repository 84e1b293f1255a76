import ExactCalc.Decimal.Basic
import ExactCalc.Text.Digits

/-! Reading a decimal from its digits, left to right.

Digits are taken as long as they fit. The first decimal that does not fit rounds the number, a half
upwards, and the digits after it are not looked at. Separators between digits are skipped, but
after the last decimal that fits one ends a short number, which is then not rounded. The first
fault met is the one reported.
-/

set_option autoImplicit false

namespace ExactCalc

inductive ReadError where
  | empty
  | noDigits
  | tooManyDigits
  | tooManyDigitsAfterRounding
  | twoPoints
  | leadingSeparator
  | unknownCharacter
  deriving DecidableEq

def ReadError.message : ReadError → String
  | .empty => "Invalid decimal: empty"
  | .noDigits => "Invalid decimal: no digits found"
  | .tooManyDigits => "Invalid decimal: overflow from too many digits"
  | .tooManyDigitsAfterRounding => "Invalid decimal: overflow from mantissa after rounding"
  | .twoPoints => "Invalid decimal: two decimal points"
  | .leadingSeparator => "Invalid decimal: must start lead with a number"
  | .unknownCharacter => "Invalid decimal: unknown character"

namespace Magnitude

def checkIgnored : List Char → Except ReadError Unit
  | [] => .ok ()
  | c :: rest =>
    if c.isDigit || c == '_' then checkIgnored rest
    else if c == '.' then .error .twoPoints
    else .error .unknownCharacter

def roundBy (m : Magnitude) (digit : Nat) : Except ReadError Magnitude :=
  let mantissa := if 5 ≤ digit then m.mantissa + 1 else m.mantissa
  if mantissa < Decimal.mantissaBound then .ok { m with mantissa }
  -- The carry has reached the bound, and a decimal is given up for it.
  else if m.scale = 0 then .error .tooManyDigitsAfterRounding
  else .ok ⟨(mantissa + 4) / 10, m.scale - 1⟩

/-- Below this bound a mantissa and any further digit keep within 64 bits. -/
def shortBound : Nat := (Nat.pow 2 64 - 1) / 10 - 255

def isShortAndFull (m : Magnitude) : Bool :=
  m.scale == Decimal.maxScale && decide (m.mantissa / 10 < shortBound)

/-- Read on from the number so far; the flags tell whether a point and a digit have been met. -/
def readFrom (m : Magnitude) (point digit : Bool) : List Char → Except ReadError Magnitude
  | [] => if digit then .ok m else .error .noDigits
  | c :: rest =>
    if c.isDigit then
      let mantissa := m.mantissa * 10 + digitValue c
      if mantissa < Decimal.mantissaBound ∧ ¬(point ∧ m.scale = Decimal.maxScale) then
        readFrom ⟨mantissa, if point then m.scale + 1 else m.scale⟩ point true rest
      else if point then do
        let rounded ← m.roundBy (digitValue c)
        checkIgnored rest
        return rounded
      else .error .tooManyDigits
    else if c == '.' then
      if point then .error .twoPoints else readFrom m true digit rest
    else if c == '_' then
      if !digit then .error .leadingSeparator
      else if m.isShortAndFull then do
        checkIgnored rest
        return m
      else readFrom m point digit rest
    else .error .unknownCharacter

end Magnitude

def Decimal.read : List Char → Except ReadError Decimal
  | [] => .error .empty
  | '-' :: rest => (·.signed true) <$> Magnitude.readFrom ⟨0, 0⟩ false false rest
  | '+' :: rest => (·.signed false) <$> Magnitude.readFrom ⟨0, 0⟩ false false rest
  | text => (·.signed false) <$> Magnitude.readFrom ⟨0, 0⟩ false false text

end ExactCalc
