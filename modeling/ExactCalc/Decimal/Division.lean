import ExactCalc.Decimal.Rounding

/-! Long division of decimals, up to nine decimals at a time.

The division stops when it comes out even, or when no further decimal fits; only then the quotient
is rounded. A quotient that did not come out even at the first try loses its trailing zeros.
Where the digits drawn pass the mantissa bound, the last one is taken back; with a divisor of more
than 64 bits a 5 taken back then rounds up even if nothing is left below it.
-/

set_option autoImplicit false

namespace ExactCalc

/-- A division under way. `room` is the number of decimals that may still follow, so the quotient
stands for `quotient / 10 ^ (28 - room)`, also when that exponent is negative. -/
structure LongDivision where
  divisor : Nat
  quotient : Nat
  remainder : Nat
  room : Nat

namespace LongDivision

def blockLength : Nat := 9

/-- The most decimals that may be drawn at once without the digits found so far passing the
mantissa bound. -/
def reach (n : LongDivision) : Nat :=
  let counts := List.range (min blockLength n.room + 1)
  (counts.reverse.find? (fun count => n.quotient * Nat.pow 10 count < Decimal.mantissaBound)).getD 0

def isExact (n : LongDivision) : Bool := n.remainder == 0

def hasScale (n : LongDivision) : Bool := n.room ≤ Decimal.maxScale

def scale (n : LongDivision) : Nat := Decimal.maxScale - n.room

def draw (n : LongDivision) (count : Nat) : LongDivision :=
  let power := Nat.pow 10 count
  { n with
    quotient := n.quotient * power + n.remainder * power / n.divisor
    remainder := n.remainder * power % n.divisor
    room := n.room - count }

def wideBound : Nat := Nat.pow 2 64

/-- Whether something counts as left below the digits drawn: a remainder, and with a wide divisor
always. -/
def isSticky (n : LongDivision) : Bool := !n.isExact || decide (wideBound ≤ n.divisor)

def back? (n : LongDivision) (sticky : Bool) : Option Magnitude :=
  if n.room < Decimal.maxScale then
    let quotient := n.quotient / 10
    let digit := n.quotient % 10
    -- A 5 taken back is a half only if nothing is left below it.
    let up := 5 < digit || (digit == 5 && (sticky || quotient % 2 == 1))
    some ⟨if up then quotient + 1 else quotient, n.scale - 1⟩
  else none

def round? (n : LongDivision) : Option Magnitude :=
  let up := roundsUp n.quotient n.remainder n.divisor
  let quotient := if up then n.quotient + 1 else n.quotient
  if quotient < Decimal.mantissaBound then some ⟨quotient, n.scale⟩
  -- Rounding has carried to the bound: one digit goes, and what was left below it still counts.
  else { n with quotient }.back? true

def stride (n : LongDivision) : Nat :=
  -- A division that came out even early only lacks the digits up to the scale of an integer.
  if n.isExact then min blockLength (n.room - Decimal.maxScale) else n.reach

/-- Divide on. The flag tells whether the division once did not come out even. -/
def run? (n : LongDivision) (inexact : Bool) : Option (Magnitude × Bool) :=
  if n.isExact && n.hasScale then some (⟨n.quotient, n.scale⟩, inexact)
  else
    let count := n.stride
    let inexact := inexact || !n.isExact
    -- Digits before the point are missing, and they do not all fit.
    if !n.isExact && count < blockLength && Decimal.maxScale + count < n.room then none
    else if count = 0 then n.round?.map (·, inexact)
    else if n.quotient * Nat.pow 10 count < Decimal.mantissaBound then
      let next := n.draw count
      if next.quotient < Decimal.mantissaBound then next.run? inexact
      else (next.back? next.isSticky).map (·, inexact)
    else none
termination_by n.room
decreasing_by
  rename_i positive _ _
  simp only [draw]
  have stride_le : n.stride ≤ n.room := by
    simp only [stride, reach]
    split
    · omega
    · cases found : ((List.range (min blockLength n.room + 1)).reverse.find?
          (fun count => n.quotient * Nat.pow 10 count < Decimal.mantissaBound)) with
      | none => simp
      | some count =>
        have member := List.mem_of_find?_eq_some found
        simp only [List.mem_reverse, List.mem_range] at member
        simp only [Option.getD_some]
        omega
  omega

end LongDivision

namespace Magnitude

def EndsInZeros (m : Magnitude) (count : Nat) : Prop :=
  count ≤ m.scale ∧ m.mantissa % Nat.pow 10 count = 0

instance (m : Magnitude) (count : Nat) : Decidable (m.EndsInZeros count) :=
  inferInstanceAs (Decidable (_ ∧ _))

def dropZeros (m : Magnitude) (count : Nat) : Magnitude :=
  if m.EndsInZeros count then ⟨m.mantissa / Nat.pow 10 count, m.scale - count⟩ else m

-- Eight zeros are looked for in multiples of `2 ^ 32` alone; of any other mantissa `trim` drops
-- seven at the most.
def dropZeroBlocks (m : Magnitude) : Magnitude :=
  if m.mantissa % Nat.pow 2 32 = 0 ∧ m.EndsInZeros 8 then
    dropZeroBlocks ⟨m.mantissa / Nat.pow 10 8, m.scale - 8⟩
  else m
termination_by m.scale
decreasing_by
  rename_i zeros
  have := zeros.2.1
  omega

def trim (m : Magnitude) : Magnitude :=
  (((m.dropZeroBlocks.dropZeros 4).dropZeros 2).dropZeros 1)

end Magnitude

namespace Decimal

def startDivision (a b : Decimal) : LongDivision where
  divisor := b.mantissa
  quotient := a.mantissa / b.mantissa
  remainder := a.mantissa % b.mantissa
  room := maxScale + b.scale - a.scale

/-- The quotient; `none` is an overflow, or a zero divisor. -/
def div? (a b : Decimal) : Option Decimal :=
  if b.isZero then none
  else if a.isZero then some zero
  else
    ((a.startDivision b).run? false).map fun (quotient, inexact) =>
      (if inexact then quotient.trim else quotient).signed (a.negative ^^ b.negative)

end Decimal

end ExactCalc
