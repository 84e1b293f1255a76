import ExactCalc.Proofs.Decimal.RoundedDivision

/-! The operators are correctly rounded, apart from a tie in a division.

The exact result is rounded once, to the nearest with as many decimals as fit, of no more than the
operator can ask for. Only a quotient just half way between two neighbours can be the wrong one of
them, and only if the divisor has more than 64 bits.
-/

set_option autoImplicit false

namespace ExactCalc

namespace Operator

def exact : Operator → ℚ → ℚ → ℚ
  | .add, p, q => p + q
  | .sub, p, q => p - q
  | .mul, p, q => p * q
  | .div, p, q => p / q

/-- The most decimals that a result is given. -/
def mostDecimals (op : Operator) (a b : Decimal) : ℕ :=
  match op with
  | .add | .sub => max a.scale b.scale
  | .mul => min Decimal.maxScale (a.scale + b.scale)
  | .div => Decimal.maxScale

/-- What a correctly rounded operator comes to: an answer is the exact result rounded with as many
decimals as fit, and an overflow says that it does not even fit without decimals. -/
inductive Rounded (op : Operator) (a b : Decimal) : Except (Fault Decimal) Decimal → Prop where
  | divisionByZero : op = .div → b.isZero → Rounded op a b (.error (.divisionByZero a b))
  | answer {result : Decimal} : ¬(op = .div ∧ b.isZero) →
      Rounds (op.exact a.toRat b.toRat) (op.mostDecimals a b) (some result.toRat) →
      Rounded op a b (.ok result)
  | overflow : ¬(op = .div ∧ b.isZero) →
      Rounds (op.exact a.toRat b.toRat) (op.mostDecimals a b) none →
      Rounded op a b (.error (.overflow op a b))

end Operator

theorem Rounds.attach {α : Type} {x : ℚ} {most : ℕ} {found : Option α} {value : α → ℚ}
    (rounds : Rounds x most (found.map value)) {negative : Bool} {attach : α → Decimal}
    (attached : ∀ item, (attach item).toRat = if negative then -value item else value item) :
    Rounds (if negative then -x else x) most ((found.map attach).map Decimal.toRat) := by
  have same : (found.map attach).map Decimal.toRat =
      (found.map value).map (fun q => if negative then -q else q) := by
    rw [Option.map_map, Option.map_map]
    exact congrArg (Option.map · found) (funext attached)
  rw [same]
  cases negative with
  | false => simpa [Function.comp_def] using rounds
  | true => exact rounds.neg

theorem RaisedTie.pos {x value : ℚ} {scale units : ℕ} (tie : RaisedTie x value scale units) :
    0 < x := by
  have bound : (0 : ℚ) < Decimal.mantissaBound := by exact_mod_cast (by decide)
  exact pos_of_mul_pos_left (bound.trans_le tie.beyond) (pow_nonneg (by norm_num) _)

theorem RaisedTie.value_pos {x value : ℚ} {scale units : ℕ} (tie : RaisedTie x value scale units) :
    0 < value := by
  have above : (0 : ℚ) < units + 1 := by positivity
  exact pos_of_mul_pos_left (tie.raised ▸ above) (pow_nonneg (by norm_num) scale)

namespace Decimal

variable {a b : Decimal}

theorem Representable.rounds (within : a.Representable) {most : ℕ} (le : a.scale ≤ most) :
    Rounds a.toRat most (some a.toRat) := by
  have value := coefficientAt_div a (Nat.le_refl a.scale)
  rw [div_eq_iff (pow_ten_ne_zero _)] at value
  refine .of_exact value.symm ?_ le
  have unsigned : |a.coefficientAt a.scale| = a.mantissa := by
    rw [coefficientAt, Nat.sub_self]
    split <;> simp
  rw [unsigned]
  exact_mod_cast within.mantissa_lt

theorem toRat_zero : zero.toRat = 0 := toRat_of_isZero rfl

theorem zero_rounds (most : ℕ) : Rounds 0 most (some zero.toRat) := by
  have rounds := zero_representable.rounds (Nat.zero_le most)
  rwa [toRat_zero] at rounds ⊢

theorem add_rounds (left : a.Representable) (right : b.Representable) :
    Rounds (a.toRat + b.toRat) (max a.scale b.scale) ((a.add? b).map toRat) := by
  unfold add?
  by_cases leftZero : a.isZero
  · rw [if_pos leftZero, toRat_of_isZero leftZero, zero_add]
    exact right.rounds (Nat.le_max_right _ _)
  rw [if_neg leftZero]
  by_cases rightZero : b.isZero
  · rw [if_pos rightZero, toRat_of_isZero rightZero, add_zero]
    exact left.rounds (Nat.le_max_left _ _)
  rw [if_neg rightZero]
  have scale : min maxScale (max a.scale b.scale) = max a.scale b.scale :=
    Nat.min_eq_right (max_le left.scale_le right.scale_le)
  have rounds := Magnitude.fit_rounds ⟨(a.alignedSum b).natAbs, max a.scale b.scale⟩
  rw [scale, Magnitude.toRat_natAbs] at rounds
  have signed := rounds.attach (Magnitude.toRat_withSign · (decide (a.alignedSum b < 0)))
  rw [Magnitude.signed_abs, alignedSum, coefficientAt_add_div] at signed
  exact signed

theorem sub_rounds (left : a.Representable) (right : b.Representable) :
    Rounds (a.toRat - b.toRat) (max a.scale b.scale) ((a.sub? b).map toRat) := by
  rw [sub_eq_add_neg, ← toRat_opposite]
  exact add_rounds left right.opposite

/-- A product of short mantissas with very many decimals is nearest to zero. -/
theorem exactProduct_rounds_zero (short : a.mantissa < shortBound ∧ b.mantissa < shortBound)
    (many : shortProductScale < (a.exactProduct b).scale) :
    Rounds (a.exactProduct b).toRat maxScale (some 0) := by
  have mantissa : (a.exactProduct b).mantissa < 2 ^ 64 := by
    have := Nat.mul_lt_mul'' short.1 short.2
    simpa [shortBound, exactProduct] using this
  have nearest : NearestEven ((a.exactProduct b).toRat * 10 ^ maxScale) 0 := by
    apply NearestEven.of_lt
    obtain ⟨more, scale⟩ := Nat.exists_eq_add_of_lt many
    have power : (10 : ℚ) ^ (a.exactProduct b).scale = 10 ^ maxScale * (10 ^ 20 * 10 ^ more) := by
      rw [scale, ← pow_add, ← pow_add]
      congr 1
      simp only [shortProductScale, maxScale]
      omega
    have large : (1 : ℚ) ≤ 10 ^ more := one_le_pow₀ (by norm_num)
    have small : ((a.exactProduct b).mantissa : ℚ) < 2 ^ 64 := by exact_mod_cast mantissa
    have positive : (0 : ℚ) < 10 ^ 20 * 10 ^ more := by positivity
    rw [Magnitude.toRat, power, Int.cast_zero, sub_zero, div_mul_eq_mul_div,
      mul_comm, mul_div_mul_left _ _ (pow_ten_ne_zero _),
      abs_of_nonneg (div_nonneg (Nat.cast_nonneg _) positive.le), div_lt_iff₀ positive]
    linarith
  have rounds := Closes.rounds ⟨le_rfl, fun _ le above => absurd le (Nat.not_le.mpr above)⟩
    nearest (by decide)
  simpa using rounds

theorem mul_rounds :
    Rounds (a.toRat * b.toRat) (min maxScale (a.scale + b.scale)) ((a.mul? b).map toRat) := by
  unfold mul?
  by_cases zero : a.isZero || b.isZero
  · have none : a.toRat * b.toRat = 0 := by
      rw [mul_eq_zero, toRat_eq_zero_iff, toRat_eq_zero_iff]
      simpa using zero
    rw [if_pos zero, none]
    exact zero_rounds _
  rw [if_neg zero]
  have value : a.toRat * b.toRat = if a.negative ^^ b.negative then -(a.exactProduct b).toRat
      else (a.exactProduct b).toRat := by
    rw [toRat_mul, ← Magnitude.toRat_mul]
    rfl
  have rounds := (a.exactProduct b).fit_rounds
  rw [value]
  dsimp only
  by_cases short : a.mantissa < shortBound ∧ b.mantissa < shortBound
  · rw [if_pos short]
    by_cases many : shortProductScale < a.scale + b.scale
    · have all : min maxScale (a.scale + b.scale) = maxScale := by
        simp only [shortProductScale, maxScale] at many ⊢
        omega
      have none := exactProduct_rounds_zero short many
      rw [if_pos many, all, Option.map_some, toRat_zero]
      split
      · simpa using none.neg
      · exact none
    · rw [if_neg many]
      exact rounds.attach (Magnitude.toRat_signed · _)
  · rw [if_neg short]
    exact rounds.attach (Magnitude.toRat_withSign · _)

theorem div_rounds (left : a.Representable) (nonzero : ¬b.isZero) :
    Rounds (a.toRat / b.toRat) maxScale ((a.div? b).map toRat) ∨
      LongDivision.wideBound ≤ b.mantissa ∧ ∃ result scale units, a.div? b = some result ∧
        0 < a.toRat / b.toRat * result.toRat ∧
        RaisedTie |a.toRat / b.toRat| |result.toRat| scale units := by
  unfold div?
  rw [if_neg nonzero]
  by_cases dividend : a.isZero
  · rw [if_pos dividend, toRat_of_isZero dividend, zero_div]
    exact Or.inl (zero_rounds _)
  rw [if_neg dividend]
  have approaches := startDivision_approaches left.scale_le (by simpa [isZero] using nonzero)
  have bounded : (a.startDivision b).quotient < mantissaBound :=
    (Nat.div_le_self _ _).trans_lt left.mantissa_lt
  rw [toRat_div]
  rcases approaches.run_rounds bounded false with
    rounds | ⟨wide, answer, inexact, scale, units, ran, tie⟩
  · exact Or.inl (rounds.attach fun pair => toRat_quotient pair.1 pair.2 _)
  · refine Or.inr ⟨wide, _, scale, units, by rw [ran]; rfl, ?_⟩
    have same := mul_pos tie.pos tie.value_pos
    dsimp only
    rw [toRat_quotient]
    cases a.negative ^^ b.negative with
    | false =>
      refine ⟨same, ?_⟩
      rw [if_neg Bool.false_ne_true, if_neg Bool.false_ne_true]
      rwa [abs_of_pos tie.pos, abs_of_pos tie.value_pos]
    | true =>
      refine ⟨by simpa using same, ?_⟩
      rwa [if_pos rfl, if_pos rfl, abs_neg, abs_neg, abs_of_pos tie.pos, abs_of_pos tie.value_pos]

end Decimal

theorem Operator.rounded_of_compute {op : Operator} {a b : Decimal}
    (defined : ¬(op = .div ∧ b.isZero))
    (rounds : Rounds (op.exact a.toRat b.toRat) (op.mostDecimals a b)
      ((op.compute? a b).map Decimal.toRat)) :
    op.Rounded a b (op.apply a b) := by
  cases computed : op.compute? a b with
  | none =>
    have failed : op.apply a b = .error (.overflow op a b) := by
      unfold apply
      rw [if_neg (show ¬(op = .div ∧ CheckedArithmetic.isZero b) from defined), computed]
    rw [computed] at rounds
    rw [failed]
    exact .overflow defined rounds
  | some result =>
    rw [computed] at rounds
    rw [apply_of_compute defined computed]
    exact .answer defined rounds

/-- An operator is correctly rounded, unless the divisor has more than 64 bits and the quotient is
just half way between two neighbours: the answer may then be the one farther from zero, though the
other one is even. -/
theorem Operator.apply_rounded (op : Operator) {a b : Decimal} (left : a.Representable)
    (right : b.Representable) :
    op.Rounded a b (op.apply a b) ∨
      op = .div ∧ LongDivision.wideBound ≤ b.mantissa ∧ ∃ result scale units,
        op.apply a b = .ok result ∧ 0 < a.toRat / b.toRat * result.toRat ∧
        RaisedTie |a.toRat / b.toRat| |result.toRat| scale units := by
  cases op with
  | add => exact Or.inl (rounded_of_compute (by simp) (Decimal.add_rounds left right))
  | sub => exact Or.inl (rounded_of_compute (by simp) (Decimal.sub_rounds left right))
  | mul => exact Or.inl (rounded_of_compute (by simp) Decimal.mul_rounds)
  | div =>
    by_cases zero : b.isZero
    · have undefined : Operator.div.apply a b = .error (.divisionByZero a b) := if_pos ⟨rfl, zero⟩
      rw [undefined]
      exact Or.inl (.divisionByZero rfl zero)
    have defined : ¬(Operator.div = .div ∧ b.isZero) := fun both => zero both.2
    rcases Decimal.div_rounds left zero with
      rounds | ⟨wide, result, scale, units, computed, sign, tie⟩
    · exact Or.inl (rounded_of_compute defined rounds)
    · exact Or.inr ⟨rfl, wide, result, scale, units, apply_of_compute defined computed, sign, tie⟩

theorem Operator.apply_rounded_twoThirds :
    Decimal.Representable ⟨false, 2, 0⟩ ∧ Decimal.Representable ⟨false, 3, 0⟩ ∧
      Operator.div.apply (⟨false, 2, 0⟩ : Decimal) ⟨false, 3, 0⟩ =
        .ok ⟨false, 6666666666666666666666666667, 28⟩ ∧
      Rounds (2 / 3) 28 (some (6666666666666666666666666667 / 10 ^ 28)) := by
  have left : Decimal.Representable ⟨false, 2, 0⟩ := by decide
  have right : Decimal.Representable ⟨false, 3, 0⟩ := by decide
  have came : Operator.div.apply (⟨false, 2, 0⟩ : Decimal) ⟨false, 3, 0⟩ =
      .ok ⟨false, 6666666666666666666666666667, 28⟩ := by decide +kernel
  refine ⟨left, right, came, ?_⟩
  rcases Operator.div.apply_rounded left right with rounded | ⟨_, wide, _⟩
  · rw [came] at rounded
    cases rounded with
    | answer _ rounds =>
      simpa [exact, mostDecimals, Decimal.toRat, Decimal.magnitude, Magnitude.toRat,
        Decimal.maxScale] using rounds
  · exact absurd wide (by decide)

/-- Half way above an even neighbour, a quotient by a wide divisor is not correctly rounded. -/
theorem Operator.not_forall_apply_rounded :
    ¬∀ (op : Operator) (a b : Decimal), a.Representable → b.Representable →
      op.Rounded a b (op.apply a b) := by
  intro correct
  let a : Decimal := ⟨false, 1158206718006924987889155144, 17⟩
  let b : Decimal := ⟨false, 146186240000000000000000, 23⟩
  have came : Operator.div.apply a b = .ok ⟨false, 7922816251426433759354882813, 18⟩ := by
    decide +kernel
  have rounded := correct .div a b (by decide) (by decide)
  rw [came] at rounded
  have value : a.toRat / b.toRat = 15845632502852867518709765625 / 2 / 10 ^ 18 := by
    norm_num [a, b, Decimal.toRat, Decimal.magnitude, Magnitude.toRat]
  cases rounded with
  | answer _ rounds =>
    change Rounds (a.toRat / b.toRat) Decimal.maxScale _ at rounds
    rw [value] at rounds
    have closes : Closes (15845632502852867518709765625 / 2 / 10 ^ 18) Decimal.maxScale 18 :=
      closes_of_beyond (by decide) (by norm_num [Decimal.mantissaBound])
    have even : NearestEven (15845632502852867518709765625 / 2 / 10 ^ 18 * 10 ^ 18)
        7922816251426433759354882812 := by
      constructor
      · norm_num
      · exact fun _ => by decide
    have other := rounds.unique (closes.rounds even (by decide))
    norm_num [Decimal.toRat, Decimal.magnitude, Magnitude.toRat] at other

end ExactCalc
