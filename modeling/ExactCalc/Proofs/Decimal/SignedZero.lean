import ExactCalc.Proofs.Decimal.Bounds

/-! Where negative zeros come from.

Reading, negating and dividing never give one. A sum or a difference gives one only if one of its
operands is one already. A product of long mantissas gives one if its factors have opposite signs
and its exact value is at most half of the last decimal.
-/

set_option autoImplicit false

namespace ExactCalc

theorem divHalfEven_eq_zero_iff {dividend divisor : ℕ} (positive : 0 < divisor) :
    divHalfEven dividend divisor = 0 ↔ 2 * dividend ≤ divisor := by
  rcases Nat.lt_or_ge dividend divisor with less | most
  · simp [divHalfEven, roundsUp, Nat.div_eq_of_lt less, Nat.mod_eq_of_lt less]
  · have quotient : 0 < dividend / divisor := Nat.div_pos most positive
    have least := div_le_divHalfEven dividend divisor
    constructor <;> intro _ <;> omega

namespace Magnitude

theorem maxScale_lt_of_tiny {m : Magnitude} (nonzero : m.mantissa ≠ 0)
    (tiny : 2 * m.mantissa * 10 ^ Decimal.maxScale ≤ 10 ^ m.scale) :
    Decimal.maxScale < m.scale := by
  by_contra short
  have shorter := Nat.pow_le_pow_right (n := 10) (by decide) (Nat.not_lt.mp short)
  have twice := Nat.mul_le_mul_right (10 ^ Decimal.maxScale) (show 2 ≤ 2 * m.mantissa by omega)
  have positive := pow_ten_pos Decimal.maxScale
  omega

/-- A number other than zero is fitted to a zero if it is at most half of the last decimal that a
number can have. -/
theorem fit_zero_iff {m : Magnitude} (nonzero : m.mantissa ≠ 0) :
    (∃ n, m.fit? = some n ∧ n.mantissa = 0) ↔
      2 * m.mantissa * 10 ^ Decimal.maxScale ≤ 10 ^ m.scale := by
  constructor
  · rintro ⟨n, fitted, zero⟩
    obtain ⟨count, _, fewest, ⟨rfl, _⟩ | ⟨rfl, beyond⟩⟩ := fit_cases fitted
    · have half := (divHalfEven_eq_zero_iff (pow_ten_pos count)).mp zero
      cases count with
      | zero => omega
      | succ count =>
        -- with one decimal more the mantissa would have been small enough, but the scale too large
        have small : m.mantissa / 10 ^ count < Decimal.mantissaBound := by
          rw [pow_succ] at half
          have few : m.mantissa / 10 ^ count ≤ 5 := Nat.div_le_of_le_mul (by omega)
          exact few.trans_lt (by decide)
        have scale : count + 1 + Decimal.maxScale ≤ m.scale := by
          by_contra less
          exact fewest count (Nat.lt_succ_self count) ⟨by omega, small⟩
        calc 2 * m.mantissa * 10 ^ Decimal.maxScale
            ≤ 10 ^ (count + 1) * 10 ^ Decimal.maxScale := Nat.mul_le_mul_right _ half
          _ = 10 ^ (count + 1 + Decimal.maxScale) := (pow_add _ _ _).symm
          _ ≤ 10 ^ m.scale := Nat.pow_le_pow_right (by decide) scale
    · have kept := div_le_divHalfEven (m.shorten count).mantissa (10 ^ 1)
      have none : divHalfEven (m.shorten count).mantissa (10 ^ 1) = 0 := zero
      simp only [Decimal.mantissaBound, Nat.pow_eq] at beyond
      omega
  · intro tiny
    obtain ⟨count, scale⟩ : ∃ count, m.scale = count + Decimal.maxScale :=
      ⟨_, (Nat.sub_add_cancel (maxScale_lt_of_tiny nonzero tiny).le).symm⟩
    rw [scale, pow_add] at tiny
    have half : 2 * m.mantissa ≤ 10 ^ count := Nat.le_of_mul_le_mul_right tiny (pow_ten_pos _)
    have gone : m.mantissa / 10 ^ count = 0 := Nat.div_eq_of_lt (by omega)
    have enough : m.FitsAfter count := ⟨by omega, by rw [Nat.pow_eq, gone]; decide⟩
    have found : (List.range (m.scale + 1)).find? (m.FitsAfter ·) = some count := by
      refine List.find?_range_eq_some.mpr ⟨decide_eq_true enough, List.mem_range.mpr (by omega), ?_⟩
      intro fewer less
      have lacking : ¬m.FitsAfter fewer := fun fits => by
        have := fits.1
        omega
      simpa using lacking
    have zero : (m.shorten count).mantissa = 0 :=
      (divHalfEven_eq_zero_iff (pow_ten_pos count)).mpr half
    refine ⟨m.shorten count, ?_, zero⟩
    simp only [fit?, found, zero]
    rfl

theorem fit_ne_zero {m n : Magnitude} (fitted : m.fit? = some n)
    (scale : m.scale ≤ Decimal.maxScale) (nonzero : m.mantissa ≠ 0) : n.mantissa ≠ 0 := by
  intro zero
  have tiny := (fit_zero_iff nonzero).mp ⟨n, fitted, zero⟩
  exact Nat.not_lt.mpr scale (maxScale_lt_of_tiny nonzero tiny)

end Magnitude

namespace Decimal

def IsNegativeZero (d : Decimal) : Prop := d.isZero ∧ d.negative

instance (d : Decimal) : Decidable d.IsNegativeZero := inferInstanceAs (Decidable (_ ∧ _))

/-- Two numbers of opposite signs whose product is too close to zero for any decimal that a number
can have, and one of which is too long to be multiplied as a short one. -/
structure Underflow (a b : Decimal) : Prop where
  left : ¬a.isZero
  right : ¬b.isZero
  opposite : a.negative ≠ b.negative
  long : shortBound ≤ a.mantissa ∨ shortBound ≤ b.mantissa
  tiny : |a.toRat * b.toRat| ≤ 1 / (2 * 10 ^ maxScale)

variable {a b result : Decimal}

theorem not_isNegativeZero_signed (m : Magnitude) (negative : Bool) :
    ¬(m.signed negative).IsNegativeZero := by
  rintro ⟨zero, signed⟩
  simp_all [Magnitude.signed, isZero]

theorem not_isNegativeZero_negate (d : Decimal) : ¬d.negate.IsNegativeZero := by
  rintro ⟨zero, negated⟩
  have same : d.isZero = true := zero
  simp [negate, same] at negated

theorem not_isNegativeZero_read {text : List Char} (read : Decimal.read text = .ok result) :
    ¬result.IsNegativeZero := by
  obtain ⟨unsigned, _, negative, _, rfl⟩ := read_cases read
  exact not_isNegativeZero_signed unsigned negative

theorem IsNegativeZero.of_add (left : a.Representable) (right : b.Representable)
    (sum : a.add? b = some result) (negativeZero : result.IsNegativeZero) :
    a.IsNegativeZero ∨ b.IsNegativeZero := by
  rcases add_cases sum with rfl | rfl | ⟨fitted, came, rfl⟩
  · exact Or.inr negativeZero
  · exact Or.inl negativeZero
  · -- what two numbers come to is rounded to a zero only if it is one, and then it is positive
    have below : a.alignedSum b < 0 := of_decide_eq_true negativeZero.2
    have nonzero := Magnitude.fit_ne_zero came (Nat.max_le.mpr ⟨left.scale_le, right.scale_le⟩)
      (by simpa using below.ne)
    exact absurd (by simpa [isZero, Magnitude.withSign] using negativeZero.1) nonzero

theorem isNegativeZero_opposite (d : Decimal) : d.opposite.IsNegativeZero ↔ d.IsNegativeZero := by
  by_cases zero : d.isZero
  · have same : d.opposite = d := by simp [opposite, zero]
    rw [same]
  · have kept : ¬d.opposite.isZero := zero
    exact ⟨fun other => absurd other.1 kept, fun other => absurd other.1 zero⟩

theorem exactProduct_ne_zero (left : ¬a.isZero) (right : ¬b.isZero) :
    (a.exactProduct b).mantissa ≠ 0 := by
  simp_all [exactProduct, isZero]

theorem tiny_iff (a b : Decimal) :
    |a.toRat * b.toRat| ≤ 1 / (2 * 10 ^ maxScale) ↔
      2 * (a.exactProduct b).mantissa * 10 ^ maxScale ≤ 10 ^ (a.exactProduct b).scale := by
  have positive : (0 : ℚ) < 10 ^ (a.scale + b.scale) := pow_pos (by norm_num) _
  have same : (a.mantissa * b.mantissa : ℚ) * (2 * 10 ^ maxScale) =
      2 * (a.mantissa * b.mantissa) * 10 ^ maxScale := by ring
  rw [abs_mul, abs_toRat, abs_toRat, Magnitude.toRat, Magnitude.toRat, magnitude, magnitude,
    div_mul_div_comm, ← pow_add, div_le_div_iff₀ positive (by positivity), one_mul, same]
  exact_mod_cast Iff.rfl

theorem mul_isNegativeZero_iff (a b : Decimal) :
    (∃ result, a.mul? b = some result ∧ result.IsNegativeZero) ↔ Underflow a b := by
  constructor
  · rintro ⟨result, product, negativeZero⟩
    rcases mul_cases product with rfl | ⟨fitted, came, rfl | ⟨left, right, long, rfl⟩⟩
    · cases negativeZero.2
    · exact absurd negativeZero (not_isNegativeZero_signed fitted _)
    · have zero : fitted.mantissa = 0 := by
        simpa [isZero, Magnitude.withSign] using negativeZero.1
      have opposite : (a.negative ^^ b.negative) = true := negativeZero.2
      have factors := exactProduct_ne_zero left right
      have tiny := (Magnitude.fit_zero_iff factors).mp ⟨fitted, came, zero⟩
      exact ⟨left, right, by simpa using opposite, long, (tiny_iff a b).mpr tiny⟩
  · rintro ⟨left, right, opposite, long, tiny⟩
    have factors := exactProduct_ne_zero left right
    obtain ⟨fitted, came, zero⟩ := (Magnitude.fit_zero_iff factors).mpr ((tiny_iff a b).mp tiny)
    refine ⟨fitted.withSign (a.negative ^^ b.negative), ?_, ?_, ?_⟩
    · unfold mul?
      rw [if_neg (by simp [left, right])]
      dsimp only
      rw [if_neg (by omega)]
      exact Option.map_eq_some_iff.mpr ⟨fitted, came, rfl⟩
    · simp [isZero, Magnitude.withSign, zero]
    · simpa [Magnitude.withSign] using opposite

theorem not_isNegativeZero_div (quotient : a.div? b = some result) : ¬result.IsNegativeZero := by
  rcases div_cases quotient with rfl | ⟨answer, inexact, _, _, rfl⟩
  · intro negativeZero
    cases negativeZero.2
  · exact not_isNegativeZero_signed _ _

end Decimal

/-- An operator gives a negative zero only if it is given one, or in a product that underflows. -/
theorem Operator.isNegativeZero_of_apply {op : Operator} {a b result : Decimal}
    (left : a.Representable) (right : b.Representable) (applied : op.apply a b = .ok result)
    (negativeZero : result.IsNegativeZero) :
    a.IsNegativeZero ∨ b.IsNegativeZero ∨ op = .mul ∧ Decimal.Underflow a b := by
  have computed := compute_of_apply applied
  cases op with
  | add => exact (negativeZero.of_add left right computed).imp_right Or.inl
  | sub =>
    have inside := negativeZero.of_add left right.opposite computed
    rw [Decimal.isNegativeZero_opposite] at inside
    exact inside.imp_right Or.inl
  | mul =>
    exact Or.inr (Or.inr ⟨rfl, (Decimal.mul_isNegativeZero_iff a b).mp ⟨_, computed, negativeZero⟩⟩)
  | div => exact absurd negativeZero (Decimal.not_isNegativeZero_div computed)

end ExactCalc
