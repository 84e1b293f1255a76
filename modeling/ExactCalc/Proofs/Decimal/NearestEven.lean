import ExactCalc.Proofs.Decimal.Bounds
import Mathlib.Data.Nat.SuccPred

/-! Rounding to the nearest with as many decimals as fit.

A rounded number is described by its distance from the exact one, and a half goes to the even
neighbour. Of the numbers of decimals with which it fits the largest counts. Fitting a number gives
up just the decimals in excess, and a carry to the bound costs one more; the number is then so near
to the bound that rounding it twice is rounding it once.
-/

set_option autoImplicit false

namespace ExactCalc

/-- The integer nearest to a number, of two equally near the even one. -/
structure NearestEven (q : ℚ) (n : ℤ) : Prop where
  close : |q - n| ≤ 1 / 2
  even : |q - n| = 1 / 2 → Even n

namespace NearestEven

variable {q t : ℚ} {m n : ℤ}

theorem unique (first : NearestEven q m) (second : NearestEven q n) : m = n := by
  by_contra other
  have least : (1 : ℚ) ≤ |(m : ℚ) - n| := by
    exact_mod_cast Int.one_le_abs (sub_ne_zero.mpr other)
  have split : |(m : ℚ) - n| ≤ |q - n| + |q - m| := by
    have same : (m : ℚ) - n = (q - n) - (q - m) := by ring
    rw [same]
    exact abs_sub _ _
  -- both are at a half, so both are even and yet next to each other
  have left := first.even (by linarith [first.close, second.close])
  have right := second.even (by linarith [first.close, second.close])
  obtain ⟨k, apart⟩ := left.sub right
  have most : |(m : ℚ) - n| ≤ 1 := by linarith [first.close, second.close]
  have bound : |m - n| ≤ 1 := by exact_mod_cast most
  have nonzero := sub_ne_zero.mpr other
  rw [abs_le] at bound
  omega

theorem of_lt (near : |q - n| < 1 / 2) : NearestEven q n :=
  ⟨near.le, fun half => absurd half near.ne⟩

theorem refl (n : ℤ) : NearestEven n n := .of_lt (by simp)

theorem neg (nearest : NearestEven q n) : NearestEven (-q) (-n) := by
  have same : |-q - ((-n : ℤ) : ℚ)| = |q - n| := by
    rw [Int.cast_neg, ← neg_sub', abs_neg]
  constructor
  · rw [same]
    exact nearest.close
  · rw [same]
    exact fun half => (nearest.even half).neg

theorem le_of_le (nearest : NearestEven q n) {bound : ℤ} (above : bound ≤ q) : bound ≤ n := by
  have close := (abs_le.mp nearest.close).2
  have less : (bound : ℚ) < n + 1 := by linarith
  exact Int.lt_add_one_iff.mp (by exact_mod_cast less)

theorem down (least : 0 ≤ t) (most : t ≤ 1 / 2) (even : t = 1 / 2 → Even n) :
    NearestEven (n + t) n := by
  have same : |(n : ℚ) + t - n| = t := by rw [add_sub_cancel_left, abs_of_nonneg least]
  exact ⟨by rwa [same], by rwa [same]⟩

theorem up (least : 1 / 2 ≤ t) (most : t ≤ 1) (odd : t = 1 / 2 → Odd n) :
    NearestEven (n + t) (n + 1) := by
  have same : |(n : ℚ) + t - ((n + 1 : ℤ) : ℚ)| = 1 - t := by
    have away : (n : ℚ) + t - ((n + 1 : ℤ) : ℚ) = -(1 - t) := by
      push_cast
      ring
    rw [away, abs_neg, abs_of_nonneg (by linarith)]
  constructor
  · rw [same]
    linarith
  · rw [same]
    exact fun half => (odd (by linarith)).add_one

end NearestEven

theorem roundsUp_nearest (quotient : ℕ) {remainder divisor : ℕ} (less : remainder < divisor) :
    NearestEven (quotient + remainder / divisor)
      ((if roundsUp quotient remainder divisor then quotient + 1 else quotient : ℕ) : ℤ) := by
  have positive : (0 : ℚ) < divisor := by exact_mod_cast Nat.zero_lt_of_lt less
  have half_le : 1 / 2 ≤ (remainder / divisor : ℚ) ↔ divisor ≤ 2 * remainder := by
    rw [div_le_div_iff₀ two_pos positive, one_mul, mul_comm]
    exact_mod_cast Iff.rfl
  have le_half : (remainder / divisor : ℚ) ≤ 1 / 2 ↔ 2 * remainder ≤ divisor := by
    rw [div_le_div_iff₀ positive two_pos, one_mul, mul_comm]
    exact_mod_cast Iff.rfl
  have half (equal : (remainder / divisor : ℚ) = 1 / 2) : 2 * remainder = divisor :=
    Nat.le_antisymm (le_half.mp equal.le) (half_le.mp equal.ge)
  by_cases upwards : roundsUp quotient remainder divisor
  · rw [if_pos upwards]
    simp only [roundsUp, Bool.or_eq_true, Bool.and_eq_true, decide_eq_true_eq, beq_iff_eq]
      at upwards
    refine .up (half_le.mpr (by omega)) ((div_le_one positive).mpr ?_) fun equal => ?_
    · exact_mod_cast less.le
    · have odd := (upwards.resolve_left (by have := half equal; omega)).2
      exact_mod_cast Nat.odd_iff.mpr odd
  · rw [if_neg upwards]
    simp only [roundsUp, Bool.or_eq_true, Bool.and_eq_true, decide_eq_true_eq, beq_iff_eq]
      at upwards
    refine .down (div_nonneg (Nat.cast_nonneg _) positive.le) (le_half.mpr (by omega))
      fun equal => ?_
    have even : quotient % 2 = 0 := by
      have := half equal
      omega
    exact_mod_cast Nat.even_iff.mpr even

theorem divHalfEven_nearest (dividend : ℕ) {divisor : ℕ} (positive : 0 < divisor) :
    NearestEven (dividend / divisor) (divHalfEven dividend divisor : ℤ) := by
  have nonzero : (divisor : ℚ) ≠ 0 := by exact_mod_cast positive.ne'
  have split : (dividend / divisor : ℚ) =
      ((dividend / divisor : ℕ) : ℚ) + ((dividend % divisor : ℕ) : ℚ) / divisor := by
    rw [eq_comm, eq_div_iff nonzero, add_mul, div_mul_cancel₀ _ nonzero]
    exact_mod_cast Nat.div_add_mod' dividend divisor
  rw [split]
  exact roundsUp_nearest _ (Nat.mod_lt _ positive)

/-! ## The decimals kept -/

def FitsAt (x : ℚ) (scale : ℕ) : Prop :=
  ∃ units : ℤ, NearestEven (x * 10 ^ scale) units ∧ |units| < (Decimal.mantissaBound : ℤ)

/-- The largest number of decimals, up to `most`, with which the number fits. -/
def IsFinest (x : ℚ) (most scale : ℕ) : Prop :=
  IsGreatest {kept | kept ≤ most ∧ FitsAt x kept} scale

/-- The number rounded with as many of its first `most` decimals as fit; there is no answer if it
does not fit without any. -/
inductive Rounds (x : ℚ) (most : ℕ) : Option ℚ → Prop where
  | kept {scale : ℕ} {units : ℤ} : IsFinest x most scale → NearestEven (x * 10 ^ scale) units →
      Rounds x most (some (units / 10 ^ scale))
  | overflow : (∀ scale ≤ most, ¬FitsAt x scale) → Rounds x most none

section

variable {x : ℚ} {most scale : ℕ}

theorem not_fitsAt_of_le {finer : ℕ} (beyond : (Decimal.mantissaBound : ℚ) ≤ x * 10 ^ scale)
    (le : scale ≤ finer) : ¬FitsAt x finer := by
  rintro ⟨units, nearest, fits⟩
  have further : (Decimal.mantissaBound : ℚ) ≤ x * 10 ^ finer := by
    obtain ⟨more, rfl⟩ := Nat.exists_eq_add_of_le le
    rw [pow_add, ← mul_assoc]
    exact beyond.trans (le_mul_of_one_le_right ((Nat.cast_nonneg _).trans beyond)
      (one_le_pow₀ (by norm_num)))
  have least : (Decimal.mantissaBound : ℤ) ≤ units := nearest.le_of_le (by exact_mod_cast further)
  exact absurd (le_abs_self units) (by omega)

theorem FitsAt.neg (fits : FitsAt x scale) : FitsAt (-x) scale := by
  obtain ⟨units, nearest, bound⟩ := fits
  exact ⟨-units, by rw [neg_mul]; exact nearest.neg, by rwa [abs_neg]⟩

theorem fitsAt_neg_iff : FitsAt (-x) scale ↔ FitsAt x scale :=
  ⟨fun fits => neg_neg x ▸ fits.neg, FitsAt.neg⟩

theorem isFinest_neg_iff : IsFinest (-x) most scale ↔ IsFinest x most scale := by
  simp only [IsFinest, fitsAt_neg_iff]

theorem Rounds.neg {answer : Option ℚ} (rounds : Rounds x most answer) :
    Rounds (-x) most (answer.map (-·)) := by
  cases rounds with
  | kept finest nearest =>
    rw [Option.map_some, ← neg_div, ← Int.cast_neg]
    refine .kept (isFinest_neg_iff.mpr finest) ?_
    rw [neg_mul]
    exact nearest.neg
  | overflow unfit => exact .overflow fun scale le fits => unfit scale le (fitsAt_neg_iff.mp fits)

theorem Rounds.unique {answer other : Option ℚ} (first : Rounds x most answer)
    (second : Rounds x most other) : answer = other := by
  cases first with
  | kept finest nearest =>
    cases second with
    | kept otherFinest otherNearest =>
      obtain rfl := finest.unique otherFinest
      rw [nearest.unique otherNearest]
    | overflow unfit => exact absurd finest.1.2 (unfit _ finest.1.1)
  | overflow unfit =>
    cases second with
    | kept finest _ => exact absurd finest.1.2 (unfit _ finest.1.1)
    | overflow => rfl

/-- A number with a form within the bounds is kept as it is. -/
theorem Rounds.of_exact {units : ℤ} (exactly : x * 10 ^ scale = units)
    (fits : |units| < (Decimal.mantissaBound : ℤ)) (le : scale ≤ most) :
    Rounds x most (some x) := by
  have inside : FitsAt x scale := ⟨units, by rw [exactly]; exact .refl units, fits⟩
  obtain ⟨finest, greatest⟩ := BddAbove.exists_isGreatest_of_nonempty
    (S := {kept | kept ≤ most ∧ FitsAt x kept}) ⟨most, fun kept member => member.1⟩
    ⟨scale, le, inside⟩
  obtain ⟨more, rfl⟩ := Nat.exists_eq_add_of_le (greatest.2 ⟨le, inside⟩)
  -- with the decimals kept the number is still a whole number of units
  have whole : x * 10 ^ (scale + more) = ((units * 10 ^ more : ℤ) : ℚ) := by
    rw [pow_add, ← mul_assoc, exactly]
    push_cast
    rfl
  have value : x = ((units * 10 ^ more : ℤ) : ℚ) / 10 ^ (scale + more) := by
    rw [← whole, mul_div_cancel_right₀ _ (pow_ten_ne_zero _)]
  have rounds : Rounds x most (some (((units * 10 ^ more : ℤ) : ℚ) / 10 ^ (scale + more))) :=
    .kept greatest (by rw [whole]; exact .refl _)
  rwa [← value] at rounds

structure Closes (x : ℚ) (most scale : ℕ) : Prop where
  le : scale ≤ most
  beyond : ∀ finer ≤ most, scale < finer → ¬FitsAt x finer

theorem closes_of_beyond (le : scale ≤ most)
    (beyond : (Decimal.mantissaBound : ℚ) ≤ x * 10 ^ (scale + 1)) : Closes x most scale :=
  ⟨le, fun _ _ above => not_fitsAt_of_le beyond above⟩

theorem Closes.isFinest (closes : Closes x most scale) (fits : FitsAt x scale) :
    IsFinest x most scale :=
  ⟨⟨closes.le, fits⟩, fun finer ⟨le, other⟩ =>
    not_lt.mp fun above => closes.beyond finer le above other⟩

theorem Closes.rounds (closes : Closes x most scale) {units : ℤ}
    (nearest : NearestEven (x * 10 ^ scale) units)
    (fits : |units| < (Decimal.mantissaBound : ℤ)) :
    Rounds x most (some (units / 10 ^ scale)) :=
  .kept (closes.isFinest ⟨units, nearest, fits⟩) nearest

theorem Closes.pred (closes : Closes x most (scale + 1)) (unfit : ¬FitsAt x (scale + 1)) :
    Closes x most scale where
  le := (Nat.le_succ _).trans closes.le
  beyond finer le above := by
    rcases Nat.eq_or_lt_of_le (Nat.succ_le_of_lt above) with rfl | further
    · exact unfit
    · exact closes.beyond finer le further

theorem Closes.overflow (closes : Closes x most 0) (unfit : ¬FitsAt x 0) :
    Rounds x most none :=
  .overflow fun scale le => by
    rcases Nat.eq_zero_or_pos scale with rfl | positive
    · exact unfit
    · exact closes.beyond scale le positive

theorem nearest_tenth_of_carry {q : ℚ} (nearest : NearestEven q Decimal.mantissaBound)
    (below : q < Decimal.mantissaBound) :
    NearestEven (q / 10) (((Decimal.mantissaBound + 4) / 10 : ℕ) : ℤ) := by
  have close := (abs_le.mp nearest.close).1
  have bound : (Decimal.mantissaBound : ℚ) = 79228162514264337593543950336 := by
    norm_num [Decimal.mantissaBound]
  have tenth : ((((Decimal.mantissaBound + 4) / 10 : ℕ) : ℤ) : ℚ) =
      7922816251426433759354395034 := by
    norm_num [Decimal.mantissaBound]
  rw [Int.cast_natCast, bound] at close
  rw [bound] at below
  apply NearestEven.of_lt
  rw [tenth, abs_lt]
  constructor <;> linarith

/-- Where rounding carries to the bound, a decimal is given up for it. -/
theorem Closes.carry (closes : Closes x most scale)
    (nearest : NearestEven (x * 10 ^ scale) Decimal.mantissaBound)
    (below : x * 10 ^ scale < Decimal.mantissaBound) :
    Rounds x most (if scale = 0 then none
      else some (((Decimal.mantissaBound + 4) / 10 : ℕ) / 10 ^ (scale - 1))) := by
  have unfit : ¬FitsAt x scale := by
    rintro ⟨units, other, fits⟩
    rw [← nearest.unique other] at fits
    exact absurd fits (by simp)
  cases scale with
  | zero =>
    rw [if_pos rfl]
    exact closes.overflow unfit
  | succ scale =>
    rw [if_neg (Nat.succ_ne_zero _), Nat.add_sub_cancel]
    have tenth := nearest_tenth_of_carry nearest below
    have same : x * 10 ^ (scale + 1) / 10 = x * 10 ^ scale := by
      rw [pow_succ, ← mul_assoc, mul_div_cancel_right₀ _ (by norm_num)]
    rw [same] at tenth
    exact (closes.pred unfit).rounds tenth (by decide)

end

/-! ## Fitting -/

namespace Magnitude

theorem toRat_mul_pow {m : Magnitude} {count : ℕ} (enough : count ≤ m.scale) :
    m.toRat * 10 ^ (m.scale - count) = (m.mantissa : ℚ) / (10 ^ count : ℕ) := by
  obtain ⟨kept, scale⟩ := Nat.exists_eq_add_of_le enough
  rw [toRat, scale, Nat.add_sub_cancel_left, pow_add, Nat.cast_pow, Nat.cast_ofNat]
  field_simp

theorem toRat_mul_pow_lt_iff {m : Magnitude} {count : ℕ} (enough : count ≤ m.scale) :
    m.toRat * 10 ^ (m.scale - count) < Decimal.mantissaBound ↔
      m.mantissa / 10 ^ count < Decimal.mantissaBound := by
  have positive : (0 : ℚ) < (10 ^ count : ℕ) := by exact_mod_cast pow_ten_pos count
  rw [toRat_mul_pow enough, div_lt_iff₀ positive, Nat.div_lt_iff_lt_mul (pow_ten_pos count)]
  exact_mod_cast Iff.rfl

/-- A number that fits after giving up some decimals, and not after fewer, fits with no decimal
more. -/
theorem closes_of_fewest {m : Magnitude} {count : ℕ} (enough : count ≤ m.scale)
    (fits : m.FitsAfter count) (fewest : ∀ fewer < count, ¬m.FitsAfter fewer) :
    Closes m.toRat (min Decimal.maxScale m.scale) (m.scale - count) where
  le := le_min (Nat.sub_le_iff_le_add'.mpr fits.1) (Nat.sub_le _ _)
  beyond finer le above := by
    obtain ⟨few, most⟩ := le_min_iff.mp le
    have kept : m.scale - (m.scale - finer) = finer := Nat.sub_sub_self most
    have lacking := fewest (m.scale - finer) (by omega)
    rw [fitsAfter_iff] at lacking
    refine not_fitsAt_of_le ?_ le_rfl
    rw [← not_lt, ← kept, toRat_mul_pow_lt_iff (Nat.sub_le _ _)]
    exact fun less => lacking ⟨by omega, less⟩

theorem shorten_nearest {m : Magnitude} {count : ℕ} (enough : count ≤ m.scale) :
    NearestEven (m.toRat * 10 ^ (m.scale - count)) ((m.shorten count).mantissa : ℤ) := by
  rw [toRat_mul_pow enough]
  exact divHalfEven_nearest m.mantissa (pow_ten_pos count)

/-- Fitting is rounding to the nearest with as many decimals as fit. -/
theorem fit_rounds (m : Magnitude) :
    Rounds m.toRat (min Decimal.maxScale m.scale) (m.fit?.map toRat) := by
  unfold fit?
  cases found : (List.range (m.scale + 1)).find? (m.FitsAfter ·) with
  | none =>
    have none_fits := List.find?_range_eq_none.mp found m.scale (Nat.lt_succ_self _)
    have lacking : ¬m.FitsAfter m.scale := by simpa using none_fits
    rw [fitsAfter_iff] at lacking
    have whole : (Decimal.mantissaBound : ℚ) ≤ m.toRat * 10 ^ 0 := by
      rw [← not_lt, ← Nat.sub_self m.scale, toRat_mul_pow_lt_iff (Nat.le_refl _)]
      exact fun less => lacking ⟨Nat.le_add_right _ _, less⟩
    exact .overflow fun scale _ => not_fitsAt_of_le whole (Nat.zero_le scale)
  | some count =>
    obtain ⟨holds, inside, before⟩ := List.find?_range_eq_some.mp found
    have fits : m.FitsAfter count := of_decide_eq_true holds
    have enough : count ≤ m.scale := Nat.lt_succ_iff.mp (List.mem_range.mp inside)
    have fewest (fewer : ℕ) (less : fewer < count) : ¬m.FitsAfter fewer := by
      simpa using before fewer less
    have closes := closes_of_fewest enough fits fewest
    have nearest := shorten_nearest enough
    dsimp only
    by_cases within : (m.shorten count).mantissa < Decimal.mantissaBound
    · rw [if_pos within]
      exact closes.rounds nearest (by rw [Nat.abs_cast]; exact_mod_cast within)
    · rw [if_neg within]
      have carried : (m.shorten count).mantissa = Decimal.mantissaBound :=
        Nat.le_antisymm ((divHalfEven_le _ _).trans fits.2) (Nat.not_lt.mp within)
      rw [carried] at nearest
      have carry := closes.carry nearest ((toRat_mul_pow_lt_iff enough).mpr fits.2)
      have tenth : divHalfEven Decimal.mantissaBound (10 ^ 1) =
          (Decimal.mantissaBound + 4) / 10 := by decide
      have scale : (m.shorten count).scale = m.scale - count := rfl
      rw [scale]
      split
      · rename_i zero
        rwa [if_pos zero] at carry
      · rename_i some_scale
        rw [if_neg some_scale] at carry
        have last : ((m.shorten count).shorten 1).toRat =
            ((Decimal.mantissaBound + 4) / 10 : ℕ) / 10 ^ (m.scale - count - 1) := by
          rw [shorten, carried, toRat, Nat.pow_eq, tenth]
          rfl
        rw [Option.map_some, last]
        exact carry

end Magnitude

end ExactCalc
