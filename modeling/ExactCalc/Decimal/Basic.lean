/-! Signed decimals with their number of decimals kept.

`0.5` and `0.50` are two decimals of one value. The bounds on mantissa and scale are the predicate
`Representable`, apart from the type, so that one can ask of each operation whether it keeps them.
-/

set_option autoImplicit false

namespace ExactCalc

structure Magnitude where
  mantissa : Nat
  scale : Nat
  deriving DecidableEq

/-- The number `± mantissa / 10 ^ scale`. A zero may carry either sign. -/
structure Decimal where
  negative : Bool
  mantissa : Nat
  scale : Nat
  deriving DecidableEq

namespace Decimal

def mantissaBound : Nat := Nat.pow 2 96

def maxScale : Nat := 28

structure Representable (d : Decimal) : Prop where
  mantissa_lt : d.mantissa < mantissaBound
  scale_le : d.scale ≤ maxScale

instance (d : Decimal) : Decidable d.Representable :=
  decidable_of_iff (d.mantissa < mantissaBound ∧ d.scale ≤ maxScale)
    ⟨fun ⟨mantissa, scale⟩ => ⟨mantissa, scale⟩, fun ⟨mantissa, scale⟩ => ⟨mantissa, scale⟩⟩

def zero : Decimal := ⟨false, 0, 0⟩

def isZero (d : Decimal) : Bool := d.mantissa == 0

-- Unlike `negate`, this leaves a zero the sign it has.
def opposite (d : Decimal) : Decimal := { d with negative := d.negative ^^ !d.isZero }

/-- Change the sign of a non-zero decimal and clear that of a zero. -/
def negate (d : Decimal) : Decimal := { d with negative := !d.negative && !d.isZero }

/-- The signed mantissa of `d` written with `scale` decimals, for `d.scale ≤ scale`. -/
def coefficientAt (d : Decimal) (scale : Nat) : Int :=
  let coefficient := d.mantissa * Nat.pow 10 (scale - d.scale)
  if d.negative then -coefficient else coefficient

end Decimal

def Magnitude.withSign (m : Magnitude) (negative : Bool) : Decimal :=
  ⟨negative, m.mantissa, m.scale⟩

/-- Attach a sign to a non-zero number; a zero becomes positive. -/
def Magnitude.signed (m : Magnitude) (negative : Bool) : Decimal :=
  ⟨negative && m.mantissa != 0, m.mantissa, m.scale⟩

end ExactCalc
