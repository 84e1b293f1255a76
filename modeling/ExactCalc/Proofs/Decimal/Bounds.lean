import ExactCalc.Decimal.Reading
import ExactCalc.Operator
import ExactCalc.Proofs.Decimal.ExactDivision
import ExactCalc.Proofs.Refusal

/-! All results are within the bounds, whatever has been rounded or carried on the way.

A mantissa that passes its bound does so by little, and the one decimal given up for it is enough.
-/

set_option autoImplicit false

namespace ExactCalc

/-! ## Rounding -/

theorem div_le_divHalfEven (dividend divisor : ℕ) :
    dividend / divisor ≤ divHalfEven dividend divisor := by
  simp only [divHalfEven]
  split <;> omega

theorem divHalfEven_le (dividend divisor : ℕ) :
    divHalfEven dividend divisor ≤ dividend / divisor + 1 := by
  simp only [divHalfEven]
  split <;> omega

namespace Magnitude

/-- What fitting a number comes to: it gives up as few decimals as the bounds ask for, and one more
if the rest then rounds up to the bound. -/
theorem fit_cases {m n : Magnitude} (fitted : m.fit? = some n) :
    ∃ count, m.FitsAfter count ∧ (∀ fewer < count, ¬m.FitsAfter fewer) ∧
      (n = m.shorten count ∧ (m.shorten count).mantissa < Decimal.mantissaBound ∨
        n = (m.shorten count).shorten 1 ∧
          Decimal.mantissaBound ≤ (m.shorten count).mantissa) := by
  unfold fit? at fitted
  cases found : (List.range (m.scale + 1)).find? (m.FitsAfter ·) with
  | none =>
    rw [found] at fitted
    cases fitted
  | some count =>
    rw [found] at fitted
    obtain ⟨holds, _, before⟩ := List.find?_range_eq_some.mp found
    have fewest (fewer : ℕ) (less : fewer < count) : ¬m.FitsAfter fewer := by
      simpa using before fewer less
    refine ⟨count, of_decide_eq_true holds, fewest, ?_⟩
    dsimp only at fitted
    split at fitted
    · rename_i within
      exact Or.inl ⟨(Option.some.inj fitted).symm, within⟩
    · rename_i beyond
      split at fitted
      · cases fitted
      · exact Or.inr ⟨(Option.some.inj fitted).symm, Nat.not_lt.mp beyond⟩

theorem fit_fits {m n : Magnitude} (fitted : m.fit? = some n) : n.Fits := by
  obtain ⟨count, enough, _, taken⟩ := fit_cases fitted
  obtain ⟨scale, mantissa⟩ := (fitsAfter_iff m count).mp enough
  rcases taken with ⟨rfl, within⟩ | ⟨rfl, _⟩
  · exact ⟨within, Nat.sub_le_iff_le_add'.mpr scale⟩
  · -- the rest is the bound at most, so that a tenth of it is far below
    have carried : (m.shorten count).mantissa ≤ Decimal.mantissaBound :=
      (divHalfEven_le _ _).trans mantissa
    have tenth := divHalfEven_le (m.shorten count).mantissa (10 ^ 1)
    refine ⟨?_, (Nat.sub_le _ _).trans (Nat.sub_le_iff_le_add'.mpr scale)⟩
    change divHalfEven (m.shorten count).mantissa (10 ^ 1) < _
    simp only [Decimal.mantissaBound, Nat.pow_eq] at carried ⊢
    omega

end Magnitude

/-! ## Division -/

namespace LongDivision

/-- What holds of a division between its turns. -/
structure Proper (n : LongDivision) : Prop where
  quotient_lt : n.quotient < Decimal.mantissaBound
  remainder_lt : n.remainder < n.divisor

variable {n : LongDivision}

theorem stride_le_block (proper : n.Proper) : n.stride ≤ blockLength := by
  unfold stride
  split
  · exact Nat.min_le_left _ _
  · exact (reach_spec proper.quotient_lt).1.trans (Nat.min_le_left _ _)

theorem back_fits {sticky : Bool} {answer : Magnitude}
    (little : n.quotient < Decimal.mantissaBound + 10 ^ blockLength)
    (taken : n.back? sticky = some answer) : answer.Fits := by
  unfold back? at taken
  split at taken
  · cases taken
    refine ⟨?_, (Nat.sub_le _ _).trans (Nat.sub_le _ _)⟩
    simp only [Decimal.mantissaBound, blockLength, Nat.pow_eq] at little ⊢
    split <;> omega
  · cases taken

theorem round_fits {answer : Magnitude} (proper : n.Proper) (rounded : n.round? = some answer) :
    answer.Fits := by
  have within := proper.quotient_lt
  unfold round? at rounded
  dsimp only at rounded
  generalize carried : (if roundsUp n.quotient n.remainder n.divisor then n.quotient + 1
    else n.quotient) = quotient at rounded
  have little : quotient ≤ Decimal.mantissaBound := by
    rw [← carried]
    split <;> omega
  split at rounded
  · rename_i fitting
    cases rounded
    exact ⟨fitting, Nat.sub_le _ _⟩
  · have room := pow_ten_pos blockLength
    exact back_fits (by change quotient < _; omega) rounded

theorem run_fits (proper : n.Proper) {inexact flag : Bool} {answer : Magnitude}
    (ran : n.run? inexact = some (answer, flag)) : answer.Fits := by
  fun_induction run? n inexact with
  | case1 n inexact =>
    cases ran
    exact ⟨proper.quotient_lt, Nat.sub_le _ _⟩
  | case2 => cases ran
  | case3 n inexact =>
    obtain ⟨_, rounded, same⟩ := Option.map_eq_some_iff.mp ran
    obtain rfl := (Prod.mk.inj same).1
    exact round_fits proper rounded
  | case4 n inexact going count flagged scaled pos bounded next within ih =>
    exact ih ⟨within, Nat.mod_lt _ (Nat.zero_lt_of_lt proper.remainder_lt)⟩ ran
  | case5 n inexact going count flagged scaled pos bounded next beyond =>
    obtain ⟨_, taken, same⟩ := Option.map_eq_some_iff.mp ran
    obtain rfl := (Prod.mk.inj same).1
    have few := stride_le_block proper
    exact back_fits (draw_quotient_lt proper.remainder_lt few bounded) taken
  | case6 => cases ran

end LongDivision

/-! ## Reading -/

namespace Magnitude

theorem roundBy_fits {m n : Magnitude} (within : m.Fits) {digit : ℕ}
    (rounded : m.roundBy digit = .ok n) : n.Fits := by
  have below := within.mantissa_lt
  have scale := within.scale_le
  unfold roundBy at rounded
  dsimp only at rounded
  generalize carried : (if 5 ≤ digit then m.mantissa + 1 else m.mantissa) = mantissa at rounded
  have little : mantissa ≤ Decimal.mantissaBound := by
    rw [← carried]
    split <;> omega
  split at rounded
  · rename_i fitting
    cases rounded
    exact ⟨fitting, scale⟩
  · split at rounded
    · cases rounded
    · cases rounded
      refine ⟨?_, (Nat.sub_le _ _).trans scale⟩
      simp only [Decimal.mantissaBound, Nat.pow_eq] at little ⊢
      omega

theorem readFrom_fits (text : List Char) {m n : Magnitude} (within : m.Fits) {point met : Bool}
    (read : readFrom m point met text = .ok n) : n.Fits := by
  fun_induction readFrom m point met text with
  | case1 =>
    cases read
    exact within
  | case3 m point met c rest digit mantissa taken ih =>
    refine ih ⟨taken.1, ?_⟩ read
    have below := within.scale_le
    have room := taken.2
    dsimp only
    split
    · rename_i point
      simp only [point, true_and] at room
      omega
    · exact below
  | case4 m met c rest =>
    obtain ⟨rounded, came, later⟩ := Except.bind_eq_ok_iff.mp read
    obtain ⟨_, _, same⟩ := Except.bind_eq_ok_iff.mp later
    cases same
    exact roundBy_fits within came
  | case7 m met c rest _ _ _ _ ih => exact ih within read
  | case9 =>
    obtain ⟨_, _, same⟩ := Except.bind_eq_ok_iff.mp read
    cases same
    exact within
  | case10 m point met c rest _ _ _ _ _ ih => exact ih within read
  | _ => cases read

end Magnitude

/-! ## What the operations come to -/

namespace Decimal

variable {a b result : Decimal}

theorem read_cases {text : List Char} (read : Decimal.read text = .ok result) :
    ∃ unsigned digits negative, Magnitude.readFrom ⟨0, 0⟩ false false digits = .ok unsigned ∧
      result = unsigned.signed negative := by
  unfold Decimal.read at read
  split at read
  · cases read
  all_goals
    obtain ⟨unsigned, came, rfl⟩ := Except.map_eq_ok_iff.mp read
    exact ⟨unsigned, _, _, came, rfl⟩

/-- The sum of two decimals in units of the last decimal that one of them has. -/
def alignedSum (a b : Decimal) : Int :=
  a.coefficientAt (max a.scale b.scale) + b.coefficientAt (max a.scale b.scale)

theorem add_cases (sum : a.add? b = some result) :
    result = b ∨ result = a ∨
      ∃ fitted, Magnitude.fit? ⟨(a.alignedSum b).natAbs, max a.scale b.scale⟩ = some fitted ∧
        result = fitted.withSign (a.alignedSum b < 0) := by
  unfold add? at sum
  split at sum
  · exact Or.inl (Option.some.inj sum).symm
  split at sum
  · exact Or.inr (Or.inl (Option.some.inj sum).symm)
  · obtain ⟨fitted, came, rfl⟩ := Option.map_eq_some_iff.mp sum
    exact Or.inr (Or.inr ⟨fitted, came, rfl⟩)

def exactProduct (a b : Decimal) : Magnitude := ⟨a.mantissa * b.mantissa, a.scale + b.scale⟩

theorem mul_cases (product : a.mul? b = some result) :
    result = zero ∨ ∃ fitted, (a.exactProduct b).fit? = some fitted ∧
      (result = fitted.signed (a.negative ^^ b.negative) ∨
        ¬a.isZero ∧ ¬b.isZero ∧ (shortBound ≤ a.mantissa ∨ shortBound ≤ b.mantissa) ∧
          result = fitted.withSign (a.negative ^^ b.negative)) := by
  unfold mul? at product
  split at product
  · exact Or.inl (Option.some.inj product).symm
  rename_i nonzero
  simp only [Bool.or_eq_true, not_or] at nonzero
  dsimp only at product
  split at product
  · split at product
    · exact Or.inl (Option.some.inj product).symm
    · obtain ⟨fitted, came, rfl⟩ := Option.map_eq_some_iff.mp product
      exact Or.inr ⟨fitted, came, Or.inl rfl⟩
  · rename_i long
    obtain ⟨fitted, came, rfl⟩ := Option.map_eq_some_iff.mp product
    exact Or.inr ⟨fitted, came, Or.inr ⟨nonzero.1, nonzero.2, by omega, rfl⟩⟩

theorem div_cases (quotient : a.div? b = some result) :
    result = zero ∨ ∃ answer inexact, b.mantissa ≠ 0 ∧
      (a.startDivision b).run? false = some (answer, inexact) ∧
      result = (if inexact then answer.trim else answer).signed (a.negative ^^ b.negative) := by
  unfold div? at quotient
  split at quotient
  · cases quotient
  rename_i divisor
  split at quotient
  · exact Or.inl (Option.some.inj quotient).symm
  · obtain ⟨⟨answer, inexact⟩, ran, rfl⟩ := Option.map_eq_some_iff.mp quotient
    exact Or.inr ⟨answer, inexact, by simpa [isZero] using divisor, ran, rfl⟩

/-! ## The operations keep within the bounds -/

theorem read_representable {text : List Char} (read : Decimal.read text = .ok result) :
    result.Representable := by
  obtain ⟨unsigned, digits, negative, came, rfl⟩ := read_cases read
  have start : Magnitude.Fits ⟨0, 0⟩ := ⟨by decide, by decide⟩
  exact (Magnitude.readFrom_fits digits start came).signed negative

theorem zero_representable : zero.Representable := ⟨by decide, by decide⟩

theorem Representable.negate (within : a.Representable) : a.negate.Representable :=
  ⟨within.mantissa_lt, within.scale_le⟩

theorem Representable.opposite (within : a.Representable) : a.opposite.Representable :=
  ⟨within.mantissa_lt, within.scale_le⟩

theorem add_representable (left : a.Representable) (right : b.Representable)
    (sum : a.add? b = some result) : result.Representable := by
  rcases add_cases sum with rfl | rfl | ⟨fitted, came, rfl⟩
  · exact right
  · exact left
  · exact (Magnitude.fit_fits came).withSign _

theorem mul_representable (product : a.mul? b = some result) : result.Representable := by
  rcases mul_cases product with rfl | ⟨fitted, came, rfl | ⟨_, _, _, rfl⟩⟩
  · exact zero_representable
  · exact (Magnitude.fit_fits came).signed _
  · exact (Magnitude.fit_fits came).withSign _

theorem div_representable (left : a.Representable) (quotient : a.div? b = some result) :
    result.Representable := by
  rcases div_cases quotient with rfl | ⟨answer, inexact, divisor, ran, rfl⟩
  · exact zero_representable
  · have proper : (a.startDivision b).Proper :=
      ⟨(Nat.div_le_self _ _).trans_lt left.mantissa_lt, Nat.mod_lt _ (Nat.pos_of_ne_zero divisor)⟩
    have fits := LongDivision.run_fits proper ran
    apply Magnitude.Fits.signed
    split
    · exact (Magnitude.trim_reduces answer).fits fits
    · exact fits

end Decimal

theorem Operator.compute_of_apply {op : Operator} {a b result : Decimal}
    (applied : op.apply a b = .ok result) : op.compute? a b = some result := by
  unfold Operator.apply at applied
  split at applied
  · cases applied
  · split at applied
    · rename_i other computed
      cases applied
      exact computed
    · cases applied

theorem Operator.apply_of_compute {op : Operator} {a b result : Decimal}
    (defined : ¬(op = .div ∧ b.isZero)) (computed : op.compute? a b = some result) :
    op.apply a b = .ok result := by
  unfold Operator.apply
  rw [if_neg (show ¬(op = .div ∧ CheckedArithmetic.isZero b) from defined), computed]

/-- An operator keeps within the bounds. -/
theorem Operator.apply_representable {op : Operator} {a b result : Decimal}
    (left : a.Representable) (right : b.Representable) (applied : op.apply a b = .ok result) :
    result.Representable := by
  have computed := compute_of_apply applied
  cases op with
  | add => exact Decimal.add_representable left right computed
  | sub => exact Decimal.add_representable left right.opposite computed
  | mul => exact Decimal.mul_representable computed
  | div => exact Decimal.div_representable left computed

end ExactCalc
