import ExactCalc.Decimal.Basic
import Mathlib.Algebra.Order.Field.Basic
import Mathlib.Algebra.Order.Field.Rat
import Mathlib.Tactic.FieldSimp
import Mathlib.Tactic.NormNum
import Mathlib.Tactic.Ring

/-! The rational number that a decimal stands for.

A number has many decimals, so exactness is stated of values. Bounds are stated of a form that the
number has: it is representable if one of its forms is within them.
-/

set_option autoImplicit false

namespace ExactCalc

def Magnitude.toRat (m : Magnitude) : ℚ := m.mantissa / 10 ^ m.scale

def Decimal.magnitude (d : Decimal) : Magnitude := ⟨d.mantissa, d.scale⟩

def Decimal.toRat (d : Decimal) : ℚ :=
  if d.negative then -d.magnitude.toRat else d.magnitude.toRat

/-- Some decimal within the bounds has this value. -/
def IsRepresentable (q : ℚ) : Prop :=
  ∃ (m : ℤ) (k : ℕ), |m| < 2 ^ 96 ∧ k ≤ 28 ∧ q = m / 10 ^ k

structure Magnitude.Fits (m : Magnitude) : Prop where
  mantissa_lt : m.mantissa < Decimal.mantissaBound
  scale_le : m.scale ≤ Decimal.maxScale

/-- The decimal is within the bounds and has exactly this value. -/
structure Decimal.IsExactly (d : Decimal) (q : ℚ) : Prop where
  representable : d.Representable
  toRat : d.toRat = q

theorem pow_ten_ne_zero (count : ℕ) : (10 : ℚ) ^ count ≠ 0 := pow_ne_zero count (by norm_num)

theorem pow_ten_pos (count : ℕ) : 0 < 10 ^ count := Nat.pow_pos (by decide)

theorem Magnitude.toRat_eq_iff (m n : Magnitude) :
    m.toRat = n.toRat ↔ m.mantissa * 10 ^ n.scale = n.mantissa * 10 ^ m.scale := by
  rw [toRat, toRat, div_eq_div_iff (pow_ten_ne_zero _) (pow_ten_ne_zero _)]
  exact_mod_cast Iff.rfl

theorem Magnitude.toRat_nonneg (m : Magnitude) : 0 ≤ m.toRat :=
  div_nonneg (Nat.cast_nonneg _) (pow_nonneg (by norm_num) _)

theorem IsRepresentable.exists_fits {q : ℚ} (representable : IsRepresentable q) :
    ∃ n : Magnitude, n.Fits ∧ n.toRat = |q| := by
  obtain ⟨m, k, bound, scale, rfl⟩ := representable
  refine ⟨⟨m.natAbs, k⟩, ⟨?_, scale⟩, ?_⟩
  · rw [Int.abs_eq_natAbs] at bound
    exact_mod_cast bound
  · have positive : (0 : ℚ) < 10 ^ k := pow_pos (by norm_num) k
    rw [Magnitude.toRat, abs_div, abs_of_pos positive, Nat.cast_natAbs, Int.cast_abs]

theorem Magnitude.Fits.isRepresentable {m : Magnitude} (fits : m.Fits) :
    IsRepresentable m.toRat := by
  refine ⟨m.mantissa, m.scale, ?_, fits.scale_le, by rw [toRat, Int.cast_natCast]⟩
  rw [Nat.abs_cast]
  exact_mod_cast fits.mantissa_lt

namespace Decimal

theorem abs_toRat (d : Decimal) : |d.toRat| = d.magnitude.toRat := by
  unfold toRat
  split
  · rw [abs_neg, abs_of_nonneg d.magnitude.toRat_nonneg]
  · rw [abs_of_nonneg d.magnitude.toRat_nonneg]

theorem toRat_of_isZero {d : Decimal} (isZero : d.isZero) : d.toRat = 0 := by
  have zero : d.mantissa = 0 := by simpa [Decimal.isZero] using isZero
  simp [toRat, magnitude, Magnitude.toRat, zero]

theorem toRat_eq_zero_iff (d : Decimal) : d.toRat = 0 ↔ d.isZero := by
  refine ⟨fun zero => ?_, toRat_of_isZero⟩
  have magnitude : d.magnitude.toRat = 0 := by rw [← abs_toRat, zero, abs_zero]
  rw [Magnitude.toRat, div_eq_zero_iff, or_iff_left (pow_ten_ne_zero _)] at magnitude
  have mantissa : d.mantissa = 0 := by exact_mod_cast magnitude
  simp [isZero, mantissa]

theorem toRat_opposite (d : Decimal) : d.opposite.toRat = -d.toRat := by
  by_cases isZero : d.isZero
  · have same : d.opposite = d := by simp [opposite, isZero]
    rw [same, toRat_of_isZero isZero, neg_zero]
  · have flipped : d.opposite = { d with negative := !d.negative } := by simp [opposite, isZero]
    rw [flipped, toRat, toRat]
    cases d.negative <;> simp [magnitude]

theorem toRat_negate (d : Decimal) : d.negate.toRat = -d.toRat := by
  by_cases isZero : d.isZero
  · have zero : d.negate.isZero := isZero
    rw [toRat_of_isZero isZero, toRat_of_isZero zero, neg_zero]
  · have flipped : d.negate = { d with negative := !d.negative } := by simp [negate, isZero]
    rw [flipped, toRat, toRat]
    cases d.negative <;> simp [magnitude]

theorem coefficientAt_div (d : Decimal) {scale : ℕ} (enough : d.scale ≤ scale) :
    (d.coefficientAt scale : ℚ) / 10 ^ scale = d.toRat := by
  have unsigned : (d.mantissa * 10 ^ (scale - d.scale) : ℚ) / 10 ^ scale = d.magnitude.toRat := by
    obtain ⟨more, rfl⟩ := Nat.exists_eq_add_of_le enough
    rw [Nat.add_sub_cancel_left, Magnitude.toRat, magnitude, pow_add,
      mul_div_mul_right _ _ (pow_ten_ne_zero more)]
  rw [coefficientAt, toRat, Nat.pow_eq]
  split
  · push_cast
    rw [neg_div, unsigned]
  · push_cast
    exact unsigned

theorem zero_isExactly : zero.IsExactly 0 := ⟨⟨by decide, by decide⟩, toRat_of_isZero rfl⟩

theorem IsExactly.negate {d : Decimal} {q : ℚ} (exactly : d.IsExactly q) :
    d.negate.IsExactly (-q) :=
  ⟨⟨exactly.representable.mantissa_lt, exactly.representable.scale_le⟩, by
    rw [toRat_negate, exactly.toRat]⟩

end Decimal

namespace Magnitude

theorem toRat_withSign (m : Magnitude) (negative : Bool) :
    (m.withSign negative).toRat = if negative then -m.toRat else m.toRat := rfl

theorem toRat_signed (m : Magnitude) (negative : Bool) :
    (m.signed negative).toRat = if negative then -m.toRat else m.toRat := by
  by_cases zero : m.mantissa = 0
  · simp [signed, Decimal.toRat, Decimal.magnitude, toRat, zero]
  · simp [signed, Decimal.toRat, Decimal.magnitude, zero]

end Magnitude

end ExactCalc
