import ExactCalc.Decimal.Division
import ExactCalc.Proofs.Decimal.ExactArithmetic

/-! Quotients that are representable come out even and are not rounded.

All along a long division its quotient, remainder and room stand for one number. If this number has
a form within the bounds, then digits are left to draw as long as there is a remainder, and where
the digits drawn pass the bound, the last of them is a zero.
-/

set_option autoImplicit false

namespace ExactCalc

namespace LongDivision

/-- The division is one with this quotient, whatever digits have been drawn. -/
structure Approaches (n : LongDivision) (x : ℚ) : Prop where
  remainder_lt : n.remainder < n.divisor
  value : ((n.quotient * n.divisor + n.remainder : ℕ) : ℚ) * 10 ^ n.room =
    x * 10 ^ Decimal.maxScale * n.divisor

/-- The division is one with this form as its quotient, in whole numbers. -/
structure Towards (n : LongDivision) (goal : Magnitude) : Prop where
  remainder_lt : n.remainder < n.divisor
  value : (n.quotient * n.divisor + n.remainder) * 10 ^ n.room =
    goal.mantissa * 10 ^ (Decimal.maxScale - goal.scale) * n.divisor

section

variable {n : LongDivision} {goal : Magnitude}

theorem Approaches.towards (approaches : n.Approaches goal.toRat)
    (scale : goal.scale ≤ Decimal.maxScale) : n.Towards goal where
  remainder_lt := approaches.remainder_lt
  value := by
    have value := approaches.value
    obtain ⟨zeros, decimals⟩ := Nat.exists_eq_add_of_le scale
    rw [decimals, pow_add, ← mul_assoc, Magnitude.toRat,
      div_mul_cancel₀ _ (pow_ten_ne_zero _)] at value
    rw [decimals, Nat.add_sub_cancel_left]
    exact_mod_cast value

theorem draw_dividend (n : LongDivision) (count : ℕ) :
    (n.draw count).quotient * n.divisor + (n.draw count).remainder =
      (n.quotient * n.divisor + n.remainder) * 10 ^ count := by
  change (n.quotient * 10 ^ count + n.remainder * 10 ^ count / n.divisor) * n.divisor +
    n.remainder * 10 ^ count % n.divisor = _
  calc _ = n.quotient * 10 ^ count * n.divisor +
        (n.divisor * (n.remainder * 10 ^ count / n.divisor) +
          n.remainder * 10 ^ count % n.divisor) := by ring
    _ = _ := by rw [Nat.div_add_mod]; ring

theorem Towards.divisor_pos (towards : n.Towards goal) : 0 < n.divisor :=
  Nat.zero_lt_of_lt towards.remainder_lt

theorem Towards.even (towards : n.Towards goal)
    (close : n.room ≤ Decimal.maxScale - goal.scale) :
    n.remainder = 0 ∧
      n.quotient = goal.mantissa * 10 ^ (Decimal.maxScale - goal.scale - n.room) := by
  obtain ⟨more, room⟩ := Nat.exists_eq_add_of_le close
  have whole : n.quotient * n.divisor + n.remainder = goal.mantissa * 10 ^ more * n.divisor := by
    apply Nat.eq_of_mul_eq_mul_right (pow_ten_pos n.room)
    rw [towards.value, room, pow_add]
    ring
  have none : n.remainder = 0 := by
    calc n.remainder = (n.quotient * n.divisor + n.remainder) % n.divisor :=
          (Nat.mul_add_mod_of_lt towards.remainder_lt).symm
      _ = 0 := by rw [whole, Nat.mul_mod_left]
  refine ⟨none, ?_⟩
  rw [room, Nat.add_sub_cancel_left]
  rw [none, Nat.add_zero] at whole
  exact Nat.eq_of_mul_eq_mul_right towards.divisor_pos whole

theorem Towards.le (towards : n.Towards goal) (far : Decimal.maxScale - goal.scale ≤ n.room) :
    n.quotient * 10 ^ (n.room - (Decimal.maxScale - goal.scale)) ≤ goal.mantissa := by
  obtain ⟨more, room⟩ := Nat.exists_eq_add_of_le far
  rw [room, Nat.add_sub_cancel_left]
  have value := towards.value
  rw [room, pow_add] at value
  -- the quotient is at most the whole, which is the goal with zeros after it
  have positive := Nat.mul_pos (pow_ten_pos (Decimal.maxScale - goal.scale)) towards.divisor_pos
  refine Nat.le_of_mul_le_mul_right ?_ positive
  calc n.quotient * 10 ^ more * (10 ^ (Decimal.maxScale - goal.scale) * n.divisor)
      = n.quotient * n.divisor * (10 ^ (Decimal.maxScale - goal.scale) * 10 ^ more) := by ring
    _ ≤ (n.quotient * n.divisor + n.remainder) *
        (10 ^ (Decimal.maxScale - goal.scale) * 10 ^ more) :=
      Nat.mul_le_mul_right _ (Nat.le_add_right _ _)
    _ = goal.mantissa * (10 ^ (Decimal.maxScale - goal.scale) * n.divisor) := by
      rw [value]
      ring

theorem Towards.draw (towards : n.Towards goal) {count : ℕ} (enough : count ≤ n.room) :
    (n.draw count).Towards goal where
  remainder_lt := Nat.mod_lt _ towards.divisor_pos
  value := by
    have divisor : (n.draw count).divisor = n.divisor := rfl
    have room : (n.draw count).room = n.room - count := rfl
    rw [divisor, room, draw_dividend, mul_assoc, ← pow_add, Nat.add_sub_cancel' enough,
      towards.value]

theorem Towards.toRat_eq (towards : n.Towards goal) (fits : goal.Fits) (even : n.remainder = 0)
    (scaled : n.room ≤ Decimal.maxScale) : Magnitude.toRat ⟨n.quotient, n.scale⟩ = goal.toRat := by
  have value : n.quotient * 10 ^ n.room =
      goal.mantissa * 10 ^ (Decimal.maxScale - goal.scale) := by
    apply Nat.eq_of_mul_eq_mul_right towards.divisor_pos
    rw [← towards.value, even]
    ring
  rw [Magnitude.toRat_eq_iff]
  apply Nat.eq_of_mul_eq_mul_right (pow_ten_pos n.room)
  calc n.quotient * 10 ^ goal.scale * 10 ^ n.room
      = goal.mantissa * (10 ^ (Decimal.maxScale - goal.scale) * 10 ^ goal.scale) := by
        rw [mul_right_comm, value, mul_assoc]
    _ = goal.mantissa * (10 ^ (Decimal.maxScale - n.room) * 10 ^ n.room) := by
        rw [← pow_add, ← pow_add, Nat.sub_add_cancel fits.scale_le, Nat.sub_add_cancel scaled]
    _ = goal.mantissa * 10 ^ n.scale * 10 ^ n.room := (mul_assoc _ _ _).symm

/-- Digits beyond the bound end in a zero, so that taking the last one back is no rounding. -/
theorem Towards.back_exact (towards : n.Towards goal) (fits : goal.Fits)
    (beyond : Decimal.mantissaBound ≤ n.quotient)
    (short : n.quotient / 10 < Decimal.mantissaBound) (sticky : Bool) :
    ∃ answer, n.back? sticky = some answer ∧ answer.Fits ∧ answer.toRat = goal.toRat := by
  -- with more room the digits would be some of the first digits of the goal
  have close : n.room < Decimal.maxScale - goal.scale := by
    by_contra far
    have digits := towards.le (Nat.not_lt.mp far)
    have grown : n.quotient ≤
        n.quotient * 10 ^ (n.room - (Decimal.maxScale - goal.scale)) :=
      Nat.le_mul_of_pos_right _ (pow_ten_pos _)
    have bound := fits.mantissa_lt
    omega
  obtain ⟨even, quotient⟩ := towards.even close.le
  have scaled : n.room < Decimal.maxScale := by omega
  have zero : 10 ^ 1 ∣ n.quotient := by
    rw [quotient]
    exact Dvd.dvd.mul_left (pow_dvd_pow 10 (by omega)) _
  have digit : n.quotient % 10 = 0 := Nat.mod_eq_zero_of_dvd zero
  have taken : n.back? sticky = some ⟨n.quotient / 10, n.scale - 1⟩ := by
    simp [back?, scaled, digit]
  have some_scale : 1 ≤ n.scale := by
    simp only [scale]
    omega
  refine ⟨_, taken, ⟨short, ?_⟩, ?_⟩
  · simp only [scale]
    omega
  · rw [← towards.toRat_eq fits even scaled.le]
    exact Magnitude.toRat_drop (m := ⟨n.quotient, n.scale⟩) some_scale zero

end

/-! ## The number of digits drawn -/

theorem exists_greatest (holds : ℕ → Bool) (bound : ℕ) (start : holds 0) :
    ∃ top, (List.range (bound + 1)).reverse.find? holds = some top ∧ top ≤ bound ∧ holds top ∧
      ∀ count ≤ bound, holds count → count ≤ top := by
  induction bound with
  | zero => exact ⟨0, by simp [start], Nat.le_refl 0, start, fun count small _ => small⟩
  | succ bound ih =>
    rw [List.range_succ, List.reverse_append, List.reverse_singleton, List.singleton_append,
      List.find?_cons]
    cases last : holds (bound + 1) with
    | true => exact ⟨bound + 1, rfl, Nat.le_refl _, last, fun count small _ => small⟩
    | false =>
      obtain ⟨top, found, small, held, greatest⟩ := ih
      refine ⟨top, found, Nat.le_succ_of_le small, held, fun count inside holding => ?_⟩
      refine greatest count (Nat.lt_succ_iff.mp (lt_of_le_of_ne inside ?_)) holding
      rintro rfl
      rw [last] at holding
      cases holding

theorem reach_spec {n : LongDivision} (bounded : n.quotient < Decimal.mantissaBound) :
    n.reach ≤ min blockLength n.room ∧ n.quotient * 10 ^ n.reach < Decimal.mantissaBound ∧
      ∀ count ≤ min blockLength n.room, n.quotient * 10 ^ count < Decimal.mantissaBound →
        count ≤ n.reach := by
  obtain ⟨top, found, small, held, greatest⟩ := exists_greatest
    (fun count => n.quotient * 10 ^ count < Decimal.mantissaBound) (min blockLength n.room)
    (by simpa using bounded)
  have reach : n.reach = top := by
    unfold reach
    simp only [Nat.pow_eq, found, Option.getD_some]
  rw [reach]
  exact ⟨small, of_decide_eq_true held, fun count inside fitting =>
    greatest count inside (decide_eq_true fitting)⟩

/-- A turn draws some digits, as many as there is room and within the bound, and does not stop at
a quotient too large for a scale of its own. -/
structure Advances (n : LongDivision) : Prop where
  pos : 0 < n.stride
  le_block : n.stride ≤ blockLength
  le_room : n.stride ≤ n.room
  bounded : n.quotient * 10 ^ n.stride < Decimal.mantissaBound
  scaled : ¬(!n.isExact && n.stride < blockLength && Decimal.maxScale + n.stride < n.room)

section

variable {n : LongDivision} {goal : Magnitude}

theorem Towards.advances_of_even (towards : n.Towards goal) (fits : goal.Fits)
    (even : n.remainder = 0) (unscaled : Decimal.maxScale < n.room) : n.Advances := by
  have isExact : n.isExact := by simp [LongDivision.isExact, even]
  have stride : n.stride = min blockLength (n.room - Decimal.maxScale) := by
    rw [LongDivision.stride, if_pos isExact]
  have digits := towards.le (by omega)
  -- these digits are zeros, of which the goal has as many
  have fewer : 10 ^ n.stride ≤ 10 ^ (n.room - (Decimal.maxScale - goal.scale)) :=
    Nat.pow_le_pow_right (by decide) (by omega)
  exact {
    pos := by
      have : 0 < blockLength := by decide
      omega
    le_block := by omega
    le_room := by omega
    bounded := lt_of_le_of_lt ((Nat.mul_le_mul_left _ fewer).trans digits) fits.mantissa_lt
    scaled := by simp [isExact] }

theorem Towards.advances_of_uneven (towards : n.Towards goal) (fits : goal.Fits)
    (bounded : n.quotient < Decimal.mantissaBound) (uneven : n.remainder ≠ 0) : n.Advances := by
  have notExact : ¬n.isExact := by simpa [LongDivision.isExact] using uneven
  have stride : n.stride = n.reach := by rw [LongDivision.stride, if_neg notExact]
  have far : Decimal.maxScale - goal.scale < n.room := by
    by_contra close
    exact uneven (towards.even (Nat.not_lt.mp close)).1
  have digits := towards.le far.le
  obtain ⟨small, within, greatest⟩ := reach_spec bounded
  -- as many digits as the goal has more than the quotient can be drawn
  have reached : min blockLength (n.room - (Decimal.maxScale - goal.scale)) ≤ n.reach := by
    refine greatest _ (by omega) (lt_of_le_of_lt (le_trans ?_ digits) fits.mantissa_lt)
    exact Nat.mul_le_mul_left _ (Nat.pow_le_pow_right (by decide) (Nat.min_le_right _ _))
  have block : 0 < blockLength := by decide
  rw [← stride] at small within reached
  exact {
    pos := by omega
    le_block := by omega
    le_room := by omega
    bounded := within
    scaled := by
      simp only [Bool.and_eq_true, decide_eq_true_eq]
      rintro ⟨⟨_, fewer⟩, left⟩
      omega }

theorem Towards.advances (towards : n.Towards goal) (fits : goal.Fits)
    (bounded : n.quotient < Decimal.mantissaBound) (going : ¬(n.isExact && n.hasScale)) :
    n.Advances := by
  by_cases even : n.remainder = 0
  · refine towards.advances_of_even fits even ?_
    simpa [LongDivision.isExact, LongDivision.hasScale, even] using going
  · exact towards.advances_of_uneven fits bounded even

theorem draw_quotient_lt (remainder : n.remainder < n.divisor) (few : n.stride ≤ blockLength)
    (bounded : n.quotient * 10 ^ n.stride < Decimal.mantissaBound) :
    (n.draw n.stride).quotient < Decimal.mantissaBound + 10 ^ blockLength := by
  -- the digits drawn add less than one of the last digit before them
  have digits : n.remainder * 10 ^ n.stride / n.divisor < 10 ^ n.stride := by
    rw [Nat.div_lt_iff_lt_mul (Nat.zero_lt_of_lt remainder), Nat.mul_comm]
    exact Nat.mul_lt_mul_of_pos_left remainder (pow_ten_pos _)
  have block : 10 ^ n.stride ≤ 10 ^ blockLength := Nat.pow_le_pow_right (by decide) few
  exact Nat.add_lt_add bounded (digits.trans_le block)

theorem run_of_advances (advances : n.Advances) (inexact : Bool)
    (going : ¬(n.isExact && n.hasScale)) :
    n.run? inexact =
      if (n.draw n.stride).quotient < Decimal.mantissaBound then
        (n.draw n.stride).run? (inexact || !n.isExact)
      else ((n.draw n.stride).back? (n.draw n.stride).isSticky).map
        (·, inexact || !n.isExact) := by
  rw [run?, if_neg going]
  simp only [Nat.pow_eq, if_neg advances.scaled, if_neg advances.pos.ne', if_pos advances.bounded]

theorem Towards.draw_div_lt (towards : n.Towards goal) (advances : n.Advances) :
    (n.draw n.stride).quotient / 10 < Decimal.mantissaBound := by
  have little := draw_quotient_lt towards.remainder_lt advances.le_block advances.bounded
  simp only [Decimal.mantissaBound, blockLength, Nat.pow_eq] at little ⊢
  omega

/-- A division towards a number within the bounds ends with this number. -/
theorem Towards.run_exact (towards : n.Towards goal) (fits : goal.Fits)
    (bounded : n.quotient < Decimal.mantissaBound) (inexact : Bool) :
    ∃ answer flag, n.run? inexact = some (answer, flag) ∧ answer.Fits ∧
      answer.toRat = goal.toRat := by
  -- each turn draws a digit at least, so the room shrinks
  induction room : n.room using Nat.strong_induction_on generalizing n inexact with
  | _ room ih =>
    subst room
    by_cases going : n.isExact && n.hasScale
    · have finished : n.remainder = 0 ∧ n.room ≤ Decimal.maxScale := by
        simpa [isExact, hasScale] using going
      refine ⟨⟨n.quotient, n.scale⟩, inexact, by rw [run?, if_pos going], ?_, ?_⟩
      · exact ⟨bounded, Nat.sub_le _ _⟩
      · exact towards.toRat_eq fits finished.1 finished.2
    · have advances := towards.advances fits bounded going
      have further := towards.draw advances.le_room
      rw [run_of_advances advances inexact going]
      by_cases within : (n.draw n.stride).quotient < Decimal.mantissaBound
      · rw [if_pos within]
        refine ih _ ?_ further within _ rfl
        exact Nat.sub_lt (advances.pos.trans_le advances.le_room) advances.pos
      · rw [if_neg within]
        obtain ⟨answer, taken, answer_fits, same⟩ := further.back_exact fits
          (Nat.not_lt.mp within) (towards.draw_div_lt advances) (n.draw n.stride).isSticky
        exact ⟨answer, _, by rw [taken]; rfl, answer_fits, same⟩

end

end LongDivision

/-! ## Trailing zeros -/

namespace Magnitude

structure Reduces (m n : Magnitude) : Prop where
  toRat : m.toRat = n.toRat
  fits : n.Fits → m.Fits

theorem Reduces.refl (m : Magnitude) : m.Reduces m := ⟨rfl, id⟩

theorem Reduces.trans {m n o : Magnitude} (first : m.Reduces n) (rest : n.Reduces o) :
    m.Reduces o :=
  ⟨first.toRat.trans rest.toRat, fun fits => first.fits (rest.fits fits)⟩

theorem EndsInZeros.reduces {m : Magnitude} {count : ℕ} (zeros : m.EndsInZeros count) :
    Reduces ⟨m.mantissa / 10 ^ count, m.scale - count⟩ m where
  toRat := toRat_drop zeros.1 (Nat.dvd_of_mod_eq_zero zeros.2)
  fits fits := ⟨lt_of_le_of_lt (Nat.div_le_self _ _) fits.mantissa_lt,
    (Nat.sub_le _ _).trans fits.scale_le⟩

theorem dropZeros_reduces (m : Magnitude) (count : ℕ) : (m.dropZeros count).Reduces m := by
  unfold dropZeros
  split
  next zeros => exact zeros.reduces
  next => exact .refl m

theorem dropZeroBlocks_reduces (m : Magnitude) : m.dropZeroBlocks.Reduces m := by
  fun_induction dropZeroBlocks m with
  | case1 m zeros ih => exact ih.trans zeros.2.reduces
  | case2 m => exact .refl m

theorem trim_reduces (m : Magnitude) : m.trim.Reduces m :=
  (dropZeros_reduces _ 1).trans <| (dropZeros_reduces _ 2).trans <|
    (dropZeros_reduces _ 4).trans m.dropZeroBlocks_reduces

end Magnitude

/-! ## Quotients -/

namespace Decimal

variable {a b : Decimal} {p q : ℚ}

theorem startDivision_approaches (dividend : a.scale ≤ maxScale) (divisor : b.mantissa ≠ 0) :
    (a.startDivision b).Approaches (a.magnitude.toRat / b.magnitude.toRat) where
  remainder_lt := Nat.mod_lt _ (Nat.pos_of_ne_zero divisor)
  value := by
    have nonzero : (b.mantissa : ℚ) ≠ 0 := by exact_mod_cast divisor
    have room : maxScale + b.scale = a.scale + (maxScale + b.scale - a.scale) := by omega
    change ((a.mantissa / b.mantissa * b.mantissa + a.mantissa % b.mantissa : ℕ) : ℚ) *
      10 ^ (maxScale + b.scale - a.scale) =
        a.mantissa / 10 ^ a.scale / (b.mantissa / 10 ^ b.scale) * 10 ^ maxScale * b.mantissa
    rw [Nat.mul_comm, Nat.div_add_mod]
    have powers : (10 : ℚ) ^ maxScale * 10 ^ b.scale =
        10 ^ a.scale * 10 ^ (maxScale + b.scale - a.scale) := by
      rw [← pow_add, ← pow_add, ← room]
    field_simp
    rw [mul_assoc, mul_comm (10 ^ (maxScale + b.scale - a.scale)), ← powers]
    ring

theorem toRat_div (a b : Decimal) :
    a.toRat / b.toRat = if a.negative ^^ b.negative then
      -(a.magnitude.toRat / b.magnitude.toRat) else a.magnitude.toRat / b.magnitude.toRat := by
  rw [toRat, toRat]
  cases a.negative <;> cases b.negative <;> simp [neg_div, div_neg]

/-- The value of a quotient is that of the division's answer: only trailing zeros are dropped. -/
theorem toRat_quotient (answer : Magnitude) (inexact negative : Bool) :
    ((if inexact then answer.trim else answer).signed negative).toRat =
      if negative then -answer.toRat else answer.toRat := by
  rw [Magnitude.toRat_signed]
  cases inexact with
  | false => rfl
  | true => rw [if_pos rfl, answer.trim_reduces.toRat]

theorem div_exact (left : a.IsExactly p) (right : b.IsExactly q) (nonzero : q ≠ 0)
    (representable : IsRepresentable (p / q)) :
    ∃ quotient, a.div? b = some quotient ∧ quotient.IsExactly (p / q) := by
  have divisor : ¬b.isZero := by rwa [← toRat_eq_zero_iff, right.toRat]
  unfold div?
  rw [if_neg divisor]
  by_cases dividend : a.isZero
  · rw [if_pos dividend]
    have none : p / q = 0 := by rw [← left.toRat, toRat_of_isZero dividend, zero_div]
    exact ⟨zero, rfl, by rw [none]; exact zero_isExactly⟩
  rw [if_neg dividend]
  obtain ⟨goal, fits, same⟩ := representable.exists_fits
  have unsigned : goal.toRat = a.magnitude.toRat / b.magnitude.toRat := by
    rw [same, ← abs_toRat, ← abs_toRat, left.toRat, right.toRat, abs_div]
  have approaches := startDivision_approaches left.representable.scale_le
    (by simpa [isZero] using divisor)
  rw [← unsigned] at approaches
  have bounded : (a.startDivision b).quotient < mantissaBound :=
    lt_of_le_of_lt (Nat.div_le_self _ _) left.representable.mantissa_lt
  obtain ⟨answer, inexact, ran, answer_fits, exactly⟩ :=
    (approaches.towards fits.scale_le).run_exact fits bounded false
  have trimmed : (if inexact then answer.trim else answer).Fits := by
    split
    · exact answer.trim_reduces.fits answer_fits
    · exact answer_fits
  refine ⟨_, by rw [ran]; rfl, trimmed.signed _, ?_⟩
  rw [toRat_quotient, exactly, unsigned, ← toRat_div, left.toRat, right.toRat]

end Decimal

end ExactCalc
