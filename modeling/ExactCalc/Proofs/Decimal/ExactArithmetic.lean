import ExactCalc.Decimal.Arithmetic
import ExactCalc.Proofs.Decimal.Value
import Mathlib.Tactic.Linarith

/-! Sums, differences and products that are representable are not rounded.

Aligning or multiplying can give a form beyond the bounds of a number that has one within them. The
decimals given up are then no more than the two forms differ by, so they are zeros.
-/

set_option autoImplicit false

namespace ExactCalc

theorem divHalfEven_of_dvd {dividend divisor : ℕ} (positive : 0 < divisor)
    (divides : divisor ∣ dividend) : divHalfEven dividend divisor = dividend / divisor := by
  have nothing : dividend % divisor = 0 := Nat.mod_eq_zero_of_dvd divides
  have down : roundsUp (dividend / divisor) 0 divisor = false := by
    simp [roundsUp, positive.ne]
  simp [divHalfEven, nothing, down]

namespace Magnitude

theorem fitsAfter_iff (m : Magnitude) (count : ℕ) : m.FitsAfter count ↔
    m.scale ≤ count + Decimal.maxScale ∧ m.mantissa / 10 ^ count < Decimal.mantissaBound := Iff.rfl

theorem shorten_of_dvd {m : Magnitude} {count : ℕ} (divides : 10 ^ count ∣ m.mantissa) :
    m.shorten count = ⟨m.mantissa / 10 ^ count, m.scale - count⟩ := by
  rw [shorten, Nat.pow_eq, divHalfEven_of_dvd (pow_ten_pos count) divides]

theorem toRat_drop {m : Magnitude} {count : ℕ} (enough : count ≤ m.scale)
    (divides : 10 ^ count ∣ m.mantissa) :
    toRat ⟨m.mantissa / 10 ^ count, m.scale - count⟩ = m.toRat := by
  rw [toRat_eq_iff]
  obtain ⟨short, same⟩ := divides
  have split : m.scale = count + (m.scale - count) := (Nat.add_sub_cancel' enough).symm
  calc m.mantissa / 10 ^ count * 10 ^ m.scale = short * 10 ^ m.scale := by
        rw [same, Nat.mul_div_cancel_left _ (pow_ten_pos count)]
    _ = short * 10 ^ (count + (m.scale - count)) := by rw [← split]
    _ = m.mantissa * 10 ^ (m.scale - count) := by rw [same, pow_add]; ring

/-- As many decimals as a number has more than a form within the bounds are zeros, and it fits
without them. -/
theorem fitsAfter_of_fits {m n : Magnitude} (fits : n.Fits) (same : m.toRat = n.toRat) :
    m.FitsAfter (m.scale - n.scale) ∧ 10 ^ (m.scale - n.scale) ∣ m.mantissa := by
  have aligned := (toRat_eq_iff m n).mp same
  rcases Nat.le_total n.scale m.scale with longer | shorter
  · obtain ⟨more, scale⟩ := Nat.exists_eq_add_of_le longer
    have mantissa : m.mantissa = n.mantissa * 10 ^ more := by
      apply Nat.eq_of_mul_eq_mul_right (pow_ten_pos n.scale)
      rw [aligned, scale, pow_add]
      ring
    rw [scale, Nat.add_sub_cancel_left, fitsAfter_iff, mantissa,
      Nat.mul_div_cancel _ (pow_ten_pos more)]
    exact ⟨⟨by have := fits.scale_le; omega, fits.mantissa_lt⟩, Nat.dvd_mul_left _ _⟩
  · obtain ⟨more, scale⟩ := Nat.exists_eq_add_of_le shorter
    have mantissa : m.mantissa * 10 ^ more = n.mantissa := by
      apply Nat.eq_of_mul_eq_mul_right (pow_ten_pos m.scale)
      rw [← aligned, scale, pow_add]
      ring
    have below : m.mantissa ≤ n.mantissa := by
      rw [← mantissa]
      exact Nat.le_mul_of_pos_right _ (pow_ten_pos more)
    rw [Nat.sub_eq_zero_of_le shorter, fitsAfter_iff, pow_zero, Nat.div_one]
    exact ⟨⟨by have := fits.scale_le; omega, lt_of_le_of_lt below fits.mantissa_lt⟩, one_dvd _⟩

/-- A number with a form within the bounds is fitted without rounding. -/
theorem fit_exact {m n : Magnitude} (fits : n.Fits) (same : m.toRat = n.toRat) :
    ∃ fitted, m.fit? = some fitted ∧ fitted.Fits ∧ fitted.toRat = m.toRat := by
  obtain ⟨enough, zeros⟩ := fitsAfter_of_fits fits same
  unfold fit?
  cases found : (List.range (m.scale + 1)).find? (m.FitsAfter ·) with
  | none =>
    have none_fits := List.find?_range_eq_none.mp found (m.scale - n.scale) (by omega)
    simp [enough] at none_fits
  | some count =>
    obtain ⟨holds, inside, before⟩ := List.find?_range_eq_some.mp found
    have fitsAfter := (fitsAfter_iff m count).mp (of_decide_eq_true holds)
    have bounded : count ≤ m.scale := Nat.lt_succ_iff.mp (List.mem_range.mp inside)
    -- no more decimals are given up than are zeros
    have least : count ≤ m.scale - n.scale := by
      by_contra above
      simpa [enough] using before _ (Nat.not_le.mp above)
    have divides : 10 ^ count ∣ m.mantissa := (pow_dvd_pow 10 least).trans zeros
    simp only [shorten_of_dvd divides, fitsAfter.2, if_true]
    refine ⟨_, rfl, ⟨fitsAfter.2, ?_⟩, toRat_drop bounded divides⟩
    exact Nat.sub_le_iff_le_add'.mpr fitsAfter.1

theorem toRat_natAbs (coefficient : ℤ) (scale : ℕ) :
    toRat ⟨coefficient.natAbs, scale⟩ = |(coefficient : ℚ) / 10 ^ scale| := by
  have positive : (0 : ℚ) < 10 ^ scale := pow_pos (by norm_num) scale
  rw [abs_div, abs_of_pos positive, toRat, Nat.cast_natAbs, Int.cast_abs]

theorem signed_abs (coefficient : ℤ) (scale : ℕ) :
    (if decide (coefficient < 0) then -|(coefficient : ℚ) / 10 ^ scale|
      else |(coefficient : ℚ) / 10 ^ scale|) = coefficient / 10 ^ scale := by
  have sign : coefficient < 0 ↔ (coefficient : ℚ) / 10 ^ scale < 0 := by
    rw [div_lt_iff₀ (pow_pos (by norm_num) scale), zero_mul, Int.cast_lt_zero]
  by_cases below : coefficient < 0
  · rw [if_pos (decide_eq_true below), abs_of_neg (sign.mp below), neg_neg]
  · have above : 0 ≤ (coefficient : ℚ) / 10 ^ scale := not_lt.mp fun low => below (sign.mpr low)
    rw [if_neg (by simpa using below), abs_of_nonneg above]

theorem toRat_mul (m n : Magnitude) :
    toRat ⟨m.mantissa * n.mantissa, m.scale + n.scale⟩ = m.toRat * n.toRat := by
  rw [toRat, toRat, toRat, Nat.cast_mul, pow_add, div_mul_div_comm]

theorem Fits.withSign {m : Magnitude} (fits : m.Fits) (negative : Bool) :
    (m.withSign negative).Representable :=
  ⟨fits.mantissa_lt, fits.scale_le⟩

theorem Fits.signed {m : Magnitude} (fits : m.Fits) (negative : Bool) :
    (m.signed negative).Representable :=
  ⟨fits.mantissa_lt, fits.scale_le⟩

end Magnitude

namespace Decimal

variable {a b : Decimal} {p q : ℚ}

/-- Aligned to the longer scale the coefficients add up. -/
theorem coefficientAt_add_div (a b : Decimal) :
    ((a.coefficientAt (max a.scale b.scale) + b.coefficientAt (max a.scale b.scale) : ℤ) : ℚ) /
      10 ^ max a.scale b.scale = a.toRat + b.toRat := by
  rw [← coefficientAt_div a (Nat.le_max_left _ b.scale),
    ← coefficientAt_div b (Nat.le_max_right a.scale _), ← add_div]
  push_cast
  rfl

theorem add_exact (left : a.IsExactly p) (right : b.IsExactly q)
    (representable : IsRepresentable (p + q)) :
    ∃ sum, a.add? b = some sum ∧ sum.IsExactly (p + q) := by
  unfold add?
  by_cases leftZero : a.isZero
  · rw [if_pos leftZero]
    have zero : p = 0 := by rw [← left.toRat, toRat_of_isZero leftZero]
    exact ⟨b, rfl, by rw [zero, zero_add]; exact right⟩
  rw [if_neg leftZero]
  by_cases rightZero : b.isZero
  · rw [if_pos rightZero]
    have zero : q = 0 := by rw [← right.toRat, toRat_of_isZero rightZero]
    exact ⟨a, rfl, by rw [zero, add_zero]; exact left⟩
  rw [if_neg rightZero]
  let scale := max a.scale b.scale
  let sum := a.coefficientAt scale + b.coefficientAt scale
  change ∃ result, (Magnitude.fit? ⟨sum.natAbs, scale⟩).map (·.withSign (decide (sum < 0))) =
    some result ∧ _
  have value : (sum : ℚ) / 10 ^ scale = p + q := by
    rw [← left.toRat, ← right.toRat]
    exact coefficientAt_add_div a b
  obtain ⟨form, fits, same⟩ := representable.exists_fits
  have unsigned : Magnitude.toRat ⟨sum.natAbs, scale⟩ = |p + q| := by
    rw [← value, Magnitude.toRat_natAbs]
  obtain ⟨fitted, found, fitted_fits, exactly⟩ :=
    Magnitude.fit_exact fits (unsigned.trans same.symm)
  refine ⟨_, by rw [found]; rfl, fitted_fits.withSign _, ?_⟩
  rw [Magnitude.toRat_withSign, exactly, unsigned]
  rw [← value]
  exact Magnitude.signed_abs sum scale

theorem sub_exact (left : a.IsExactly p) (right : b.IsExactly q)
    (representable : IsRepresentable (p - q)) :
    ∃ difference, a.sub? b = some difference ∧ difference.IsExactly (p - q) := by
  have opposite : b.opposite.IsExactly (-q) :=
    ⟨⟨right.representable.mantissa_lt, right.representable.scale_le⟩, by
      rw [toRat_opposite, right.toRat]⟩
  rw [sub_eq_add_neg] at representable ⊢
  exact add_exact left opposite representable

theorem toRat_mul (a b : Decimal) :
    a.toRat * b.toRat = if a.negative ^^ b.negative then
      -(a.magnitude.toRat * b.magnitude.toRat) else a.magnitude.toRat * b.magnitude.toRat := by
  rw [toRat, toRat]
  cases a.negative <;> cases b.negative <;> simp

theorem scale_le_of_short {product form : Magnitude} (fits : form.Fits)
    (same : product.toRat = form.toRat) (nonzero : product.mantissa ≠ 0)
    (short : product.mantissa < 2 ^ 64) : product.scale ≤ shortProductScale := by
  by_contra above
  -- a product with so many decimals would be a multiple of a power beyond 64 bits
  have zeros := (Magnitude.fitsAfter_of_fits fits same).2
  have many : 20 ≤ product.scale - form.scale := by
    have scale := fits.scale_le
    simp only [shortProductScale, maxScale] at above scale
    omega
  have large : 10 ^ 20 ≤ product.mantissa :=
    Nat.le_of_dvd (Nat.pos_of_ne_zero nonzero) ((pow_dvd_pow 10 many).trans zeros)
  omega

theorem mul_exact (left : a.IsExactly p) (right : b.IsExactly q)
    (representable : IsRepresentable (p * q)) :
    ∃ product, a.mul? b = some product ∧ product.IsExactly (p * q) := by
  unfold mul?
  by_cases zero : a.isZero || b.isZero
  · rw [if_pos zero]
    refine ⟨Decimal.zero, rfl, ?_⟩
    have none : p * q = 0 := by
      rw [← left.toRat, ← right.toRat, mul_eq_zero, toRat_eq_zero_iff, toRat_eq_zero_iff]
      simpa using zero
    rw [none]
    exact zero_isExactly
  rw [if_neg zero]
  let product : Magnitude := ⟨a.mantissa * b.mantissa, a.scale + b.scale⟩
  let negative := a.negative ^^ b.negative
  change ∃ result, (if a.mantissa < shortBound ∧ b.mantissa < shortBound then
      if shortProductScale < product.scale then some Decimal.zero
      else product.fit?.map (Magnitude.signed · negative)
    else product.fit?.map (Magnitude.withSign · negative)) = some result ∧ _
  have value : product.toRat = a.magnitude.toRat * b.magnitude.toRat :=
    Magnitude.toRat_mul a.magnitude b.magnitude
  have unsigned : product.toRat = |p * q| := by
    rw [value, ← abs_toRat, ← abs_toRat, left.toRat, right.toRat, abs_mul]
  have whole : p * q = if negative then -product.toRat else product.toRat := by
    rw [← left.toRat, ← right.toRat, toRat_mul, value]
  obtain ⟨form, fits, same⟩ := representable.exists_fits
  obtain ⟨fitted, found, fitted_fits, exactly⟩ :=
    Magnitude.fit_exact fits (unsigned.trans same.symm)
  rw [found]
  split
  next short =>
    have bounded : product.mantissa < 2 ^ 64 := by
      have := Nat.mul_lt_mul'' short.1 short.2
      simpa [shortBound] using this
    have nonzero : product.mantissa ≠ 0 := by simpa [isZero, product] using zero
    have scale := scale_le_of_short fits (unsigned.trans same.symm) nonzero bounded
    rw [if_neg (Nat.not_lt.mpr scale)]
    refine ⟨_, rfl, fitted_fits.signed _, ?_⟩
    rw [Magnitude.toRat_signed, exactly, whole]
  next =>
    refine ⟨_, rfl, fitted_fits.withSign _, ?_⟩
    rw [Magnitude.toRat_withSign, exactly, whole]

end Decimal

end ExactCalc
