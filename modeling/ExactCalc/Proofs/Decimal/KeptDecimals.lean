import ExactCalc.Proofs.Decimal.CorrectRounding
import ExactCalc.Proofs.Decimal.SignedZero

/-! Sums, differences and products with all their decimals.

An operator aligns or multiplies first and rounds then. If what it has then is within the bounds, no
decimal is given up, not even a zero at the end.
-/

set_option autoImplicit false

namespace ExactCalc

namespace Magnitude

theorem fit_of_fits {m : Magnitude} (fits : m.Fits) : m.fit? = some m := by
  have enough : m.FitsAfter 0 := by
    rw [fitsAfter_iff, pow_zero, Nat.div_one]
    exact ⟨fits.scale_le.trans (Nat.le_add_left _ _), fits.mantissa_lt⟩
  have none_given : (List.range (m.scale + 1)).find? (m.FitsAfter ·) = some 0 := by
    rw [List.range_succ_eq_map]
    exact List.find?_cons_of_pos (decide_eq_true enough)
  have same : m.shorten 0 = m := by
    rw [shorten_of_dvd (one_dvd _), pow_zero, Nat.div_one, Nat.sub_zero]
  simp only [fit?, none_given, same, fits.mantissa_lt, if_true]

end Magnitude

def Decimal.ofCoefficient (coefficient : ℤ) (scale : ℕ) : Decimal :=
  ⟨decide (coefficient < 0), coefficient.natAbs, scale⟩

namespace Decimal

variable {a b : Decimal} {coefficient : ℤ}

theorem toRat_ofCoefficient (coefficient : ℤ) (scale : ℕ) :
    (ofCoefficient coefficient scale).toRat = coefficient / 10 ^ scale := by
  change (if decide (coefficient < 0) then -Magnitude.toRat ⟨coefficient.natAbs, scale⟩
    else Magnitude.toRat ⟨coefficient.natAbs, scale⟩) = _
  rw [Magnitude.toRat_natAbs]
  exact Magnitude.signed_abs coefficient scale

theorem natAbs_lt_mantissaBound (bound : |coefficient| < 2 ^ 96) :
    coefficient.natAbs < mantissaBound := by
  rw [Int.abs_eq_natAbs] at bound
  exact_mod_cast bound

theorem add_keeps (left : a.Representable) (right : b.Representable) (leftNonzero : ¬a.isZero)
    (rightNonzero : ¬b.isZero)
    (written : a.toRat + b.toRat = coefficient / 10 ^ max a.scale b.scale)
    (bound : |coefficient| < 2 ^ 96) :
    a.add? b = some (ofCoefficient coefficient (max a.scale b.scale)) := by
  -- over one power of ten there is one coefficient
  have sum : a.alignedSum b = coefficient := by
    rw [← coefficientAt_add_div, div_left_inj' (pow_ten_ne_zero _)] at written
    exact_mod_cast written
  have fits : Magnitude.Fits ⟨coefficient.natAbs, max a.scale b.scale⟩ :=
    ⟨natAbs_lt_mantissaBound bound, max_le left.scale_le right.scale_le⟩
  rw [add?, if_neg leftNonzero, if_neg rightNonzero]
  change (Magnitude.fit? ⟨(a.alignedSum b).natAbs, max a.scale b.scale⟩).map
    (Magnitude.withSign · (decide (a.alignedSum b < 0))) = _
  rw [sum, Magnitude.fit_of_fits fits]
  rfl

theorem sub_keeps (left : a.Representable) (right : b.Representable) (leftNonzero : ¬a.isZero)
    (rightNonzero : ¬b.isZero)
    (written : a.toRat - b.toRat = coefficient / 10 ^ max a.scale b.scale)
    (bound : |coefficient| < 2 ^ 96) :
    a.sub? b = some (ofCoefficient coefficient (max a.scale b.scale)) := by
  rw [sub_eq_add_neg, ← toRat_opposite] at written
  exact add_keeps left right.opposite leftNonzero rightNonzero written bound

theorem mul_keeps (leftNonzero : ¬a.isZero) (rightNonzero : ¬b.isZero)
    (scale : a.scale + b.scale ≤ 28) (bound : a.mantissa * b.mantissa < 2 ^ 96) :
    a.mul? b =
      some ⟨a.negative ^^ b.negative, a.mantissa * b.mantissa, a.scale + b.scale⟩ := by
  have fits : (a.exactProduct b).Fits := ⟨bound, scale⟩
  have nonzero : a.mantissa * b.mantissa ≠ 0 := exactProduct_ne_zero leftNonzero rightNonzero
  have fitted := Magnitude.fit_of_fits fits
  have few : ¬shortProductScale < a.scale + b.scale := by
    simp only [shortProductScale]
    omega
  have neither : ¬(a.isZero || b.isZero) := by simp [leftNonzero, rightNonzero]
  unfold exactProduct at fitted
  rw [mul?, if_neg neither]
  -- short mantissas clear the sign of a zero, which this product is not
  simp only [few, if_false, fitted, Option.map_some]
  split
  · simp [Magnitude.signed, nonzero]
  · rfl

end Decimal

namespace Operator

variable {op : Operator} {a b : Decimal}

theorem apply_keeps (additive : op.isMultiplicative = false) (left : a.Representable)
    (right : b.Representable) (leftNonzero : ¬a.isZero) (rightNonzero : ¬b.isZero)
    {coefficient : ℤ}
    (written : op.exact a.toRat b.toRat = coefficient / 10 ^ max a.scale b.scale)
    (bound : |coefficient| < 2 ^ 96) :
    op.apply a b = .ok (.ofCoefficient coefficient (max a.scale b.scale)) := by
  cases op with
  | add =>
    exact apply_of_compute (by simp)
      (Decimal.add_keeps left right leftNonzero rightNonzero written bound)
  | sub =>
    exact apply_of_compute (by simp)
      (Decimal.sub_keeps left right leftNonzero rightNonzero written bound)
  | mul => cases additive
  | div => cases additive

/-- With as many decimals as one of the operands has, a sum or a difference can be written. -/
theorem exists_coefficient (additive : op.isMultiplicative = false) (a b : Decimal) :
    ∃ coefficient : ℤ, op.exact a.toRat b.toRat = coefficient / 10 ^ max a.scale b.scale := by
  cases op with
  | add => exact ⟨a.alignedSum b, (Decimal.coefficientAt_add_div a b).symm⟩
  | sub =>
    refine ⟨a.alignedSum b.opposite, ?_⟩
    rw [exact, sub_eq_add_neg, ← Decimal.toRat_opposite]
    exact (Decimal.coefficientAt_add_div a b.opposite).symm
  | mul => cases additive
  | div => cases additive

theorem exists_kept (additive : op.isMultiplicative = false) (left : a.Representable)
    (right : b.Representable) (leftNonzero : a.toRat ≠ 0) (rightNonzero : b.toRat ≠ 0)
    (fits : |op.exact a.toRat b.toRat| * 10 ^ max a.scale b.scale < 2 ^ 96) :
    ∃ result, op.apply a b = .ok result ∧ result.toRat = op.exact a.toRat b.toRat ∧
      result.scale = max a.scale b.scale := by
  obtain ⟨coefficient, written⟩ := exists_coefficient additive a b
  have bound : |coefficient| < 2 ^ 96 := by
    have positive : (0 : ℚ) < 10 ^ max a.scale b.scale := by positivity
    rw [written, abs_div, abs_of_pos positive, div_mul_cancel₀ _ positive.ne'] at fits
    exact_mod_cast fits
  have applied := apply_keeps additive left right (mt a.toRat_eq_zero_iff.mpr leftNonzero)
    (mt b.toRat_eq_zero_iff.mpr rightNonzero) written bound
  exact ⟨_, applied, by rw [Decimal.toRat_ofCoefficient, written], rfl⟩

end Operator

end ExactCalc
