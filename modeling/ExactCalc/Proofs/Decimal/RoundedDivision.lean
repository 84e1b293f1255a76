import ExactCalc.Proofs.Decimal.NearestEven

/-! Long divisions round to the nearest, with one exception.

All along a division the digits drawn and what is left stand for one number, and the digits tell
with how many decimals it can fit. Where they pass the bound, the last one is taken back into the
rounding. With a divisor of more than 64 bits something then always counts as left below that digit,
so that a number just half way goes up, also where the neighbour below is the even one.
-/

set_option autoImplicit false

namespace ExactCalc

/-- The number is just half way between two neighbours with `scale` decimals, the lower one even,
and the value is the upper one. With one decimal more its digits pass the bound by less than a block
of digits. -/
structure RaisedTie (x value : ℚ) (scale units : ℕ) : Prop where
  finest : IsFinest x Decimal.maxScale scale
  scale_lt : scale < Decimal.maxScale
  even : Even units
  tie : x * 10 ^ scale = units + 1 / 2
  beyond : (Decimal.mantissaBound : ℚ) ≤ x * 10 ^ (scale + 1)
  little : x * 10 ^ (scale + 1) < Decimal.mantissaBound + 10 ^ LongDivision.blockLength
  raised : value * 10 ^ scale = units + 1

namespace LongDivision

/-- A digit taken back rounds to the nearest where `sticky` tells truly whether something is left
below it, as far as this matters. -/
theorem back_nearest (quotient : ℕ) (sticky : Bool) {fraction : ℚ} (least : 0 ≤ fraction)
    (less : fraction < 1) (told : 0 < fraction → sticky)
    (truly : fraction = 0 → quotient % 10 = 5 → sticky → Odd (quotient / 10)) :
    NearestEven ((quotient + fraction) / 10)
      ((if 5 < quotient % 10 || (quotient % 10 == 5 && (sticky || quotient / 10 % 2 == 1)) then
        quotient / 10 + 1 else quotient / 10 : ℕ) : ℤ) := by
  have split : (quotient + fraction) / 10 =
      ((quotient / 10 : ℕ) : ℤ) + ((quotient % 10 : ℕ) + fraction) / 10 := by
    have digits : (quotient : ℚ) = 10 * (quotient / 10 : ℕ) + (quotient % 10 : ℕ) := by
      exact_mod_cast (Nat.div_add_mod quotient 10).symm
    rw [Int.cast_natCast]
    linarith
  have small : quotient % 10 < 10 := Nat.mod_lt _ (by decide)
  rw [split]
  generalize quotient % 10 = digit, quotient / 10 = tens at *
  have most : (digit : ℚ) ≤ 9 := by exact_mod_cast Nat.le_of_lt_succ small
  by_cases upwards : 5 < digit || (digit == 5 && (sticky || tens % 2 == 1))
  · rw [if_pos upwards]
    simp only [Bool.or_eq_true, Bool.and_eq_true, decide_eq_true_eq, beq_iff_eq] at upwards
    have high : (5 : ℚ) ≤ digit := by exact_mod_cast (by omega : 5 ≤ digit)
    refine .up (by linarith) (by linarith) fun half => ?_
    have five : digit = 5 := by
      have low : (digit : ℚ) ≤ 5 := by linarith
      exact_mod_cast le_antisymm low high
    have none : fraction = 0 := by linarith
    rcases (upwards.resolve_left (by omega)).2 with stuck | odd
    · exact_mod_cast truly none five stuck
    · exact_mod_cast Nat.odd_iff.mpr odd
  · rw [if_neg upwards]
    simp only [Bool.or_eq_true, Bool.and_eq_true, decide_eq_true_eq, beq_iff_eq, not_or, not_and]
      at upwards
    rcases Nat.lt_or_ge digit 5 with low | high
    · have low : (digit : ℚ) ≤ 4 := by exact_mod_cast Nat.le_of_lt_succ low
      exact .down (by positivity) (by linarith) fun half => by linarith
    · obtain rfl : digit = 5 := by omega
      obtain ⟨loose, even⟩ := upwards.2 rfl
      have none : fraction = 0 := le_antisymm (not_lt.mp fun some => loose (told some)) least
      refine .down (by positivity) (by rw [none]; norm_num) fun _ => ?_
      exact_mod_cast Nat.even_iff.mpr (by omega)

/-! ## Ties -/

theorem tenth_succ_lt {quotient : ℕ}
    (little : quotient < Decimal.mantissaBound + 10 ^ blockLength) :
    quotient / 10 + 1 < Decimal.mantissaBound := by
  simp only [Decimal.mantissaBound, blockLength, Nat.pow_eq] at little ⊢
  omega

theorem raisedTie_of_five {x : ℚ} {scale quotient : ℕ} (closes : Closes x Decimal.maxScale scale)
    (scale_lt : scale < Decimal.maxScale) (digits : x * 10 ^ (scale + 1) = quotient)
    (five : quotient % 10 = 5) (even : Even (quotient / 10))
    (beyond : Decimal.mantissaBound ≤ quotient)
    (little : quotient < Decimal.mantissaBound + 10 ^ blockLength) :
    RaisedTie x (Magnitude.toRat ⟨quotient / 10 + 1, scale⟩) scale (quotient / 10) := by
  have split : (quotient : ℚ) = 10 * (quotient / 10 : ℕ) + 5 := by
    exact_mod_cast (five ▸ Nat.div_add_mod quotient 10).symm
  have tie : x * 10 ^ scale = (quotient / 10 : ℕ) + 1 / 2 := by
    rw [pow_succ, ← mul_assoc, split] at digits
    linarith
  have nearest : NearestEven (x * 10 ^ scale) ((quotient / 10 : ℕ) : ℤ) := by
    rw [tie]
    exact .down (by norm_num) le_rfl fun _ => by exact_mod_cast even
  have small := (Nat.lt_succ_self _).trans (tenth_succ_lt little)
  have fits : FitsAt x scale := ⟨_, nearest, by rw [Nat.abs_cast]; exact_mod_cast small⟩
  exact {
    finest := closes.isFinest fits
    scale_lt := scale_lt
    even := even
    tie := tie
    beyond := by
      rw [digits]
      exact_mod_cast beyond
    little := by
      rw [digits]
      exact_mod_cast little
    raised := by
      rw [Magnitude.toRat, div_mul_cancel₀ _ (pow_ten_ne_zero scale)]
      push_cast
      rfl }

/-! ## The number of digits drawn -/

section

variable {n : LongDivision}

theorem stride_of_even (even : n.isExact) :
    n.stride = min blockLength (n.room - Decimal.maxScale) := by
  rw [stride, if_pos even]

theorem stride_of_uneven (uneven : ¬n.isExact) : n.stride = n.reach := by
  rw [stride, if_neg uneven]

theorem stride_le_room (bounded : n.quotient < Decimal.mantissaBound) : n.stride ≤ n.room := by
  by_cases even : n.isExact
  · have := stride_of_even even
    omega
  · have := (reach_spec bounded).1
    rw [stride_of_uneven even]
    omega

theorem beyond_of_reach (bounded : n.quotient < Decimal.mantissaBound) {count : ℕ}
    (reach : n.reach = count) (less : count < min blockLength n.room) :
    Decimal.mantissaBound ≤ n.quotient * 10 ^ (count + 1) := by
  by_contra within
  have greatest := (reach_spec bounded).2.2 (count + 1) less (Nat.not_le.mp within)
  omega

end

/-! ## The number that a division approaches -/

namespace Approaches

variable {n : LongDivision} {x : ℚ}

theorem divisor_pos (approaches : n.Approaches x) : 0 < n.divisor :=
  Nat.zero_lt_of_lt approaches.remainder_lt

theorem fraction_nonneg (_ : n.Approaches x) : (0 : ℚ) ≤ n.remainder / n.divisor :=
  div_nonneg (Nat.cast_nonneg _) (Nat.cast_nonneg _)

theorem fraction_lt (approaches : n.Approaches x) : (n.remainder / n.divisor : ℚ) < 1 := by
  have positive : (0 : ℚ) < n.divisor := by exact_mod_cast approaches.divisor_pos
  rw [div_lt_one positive]
  exact_mod_cast approaches.remainder_lt

theorem draw (approaches : n.Approaches x) {count : ℕ} (enough : count ≤ n.room) :
    (n.draw count).Approaches x where
  remainder_lt := Nat.mod_lt _ approaches.divisor_pos
  value := by
    have divisor : (n.draw count).divisor = n.divisor := rfl
    have room : (n.draw count).room = n.room - count := rfl
    rw [divisor, room, draw_dividend, ← approaches.value, Nat.cast_mul, Nat.cast_pow,
      Nat.cast_ofNat, mul_assoc, ← pow_add, Nat.add_sub_cancel' enough]

theorem mul_pow (approaches : n.Approaches x) {scale more : ℕ}
    (aligned : scale + n.room = Decimal.maxScale + more) :
    x * 10 ^ scale = (n.quotient + n.remainder / n.divisor) * 10 ^ more := by
  have divisor : (n.divisor : ℚ) ≠ 0 := by exact_mod_cast approaches.divisor_pos.ne'
  have value := approaches.value
  push_cast at value
  apply mul_right_cancel₀ (mul_ne_zero (pow_ten_ne_zero Decimal.maxScale) divisor)
  calc x * 10 ^ scale * (10 ^ Decimal.maxScale * n.divisor)
      = x * 10 ^ Decimal.maxScale * n.divisor * 10 ^ scale := by ring
    _ = (n.quotient * n.divisor + n.remainder) * 10 ^ (scale + n.room) := by
      rw [← value, pow_add]
      ring
    _ = (n.quotient + n.remainder / n.divisor) * 10 ^ more *
        (10 ^ Decimal.maxScale * n.divisor) := by
      rw [aligned, pow_add]
      field_simp

theorem mul_pow_scale (approaches : n.Approaches x) (scaled : n.room ≤ Decimal.maxScale) :
    x * 10 ^ n.scale = n.quotient + n.remainder / n.divisor := by
  have aligned : n.scale + n.room = Decimal.maxScale + 0 := Nat.sub_add_cancel scaled
  have whole := approaches.mul_pow aligned
  rwa [pow_zero, mul_one] at whole

theorem unfit (approaches : n.Approaches x) {more : ℕ}
    (beyond : Decimal.mantissaBound ≤ n.quotient * 10 ^ more) {scale : ℕ}
    (enough : Decimal.maxScale + more ≤ scale + n.room) : ¬FitsAt x scale := by
  obtain ⟨extra, aligned⟩ := Nat.exists_eq_add_of_le enough
  refine not_fitsAt_of_le ?_ le_rfl
  rw [approaches.mul_pow (aligned.trans (Nat.add_assoc _ _ _))]
  have digits : (Decimal.mantissaBound : ℚ) ≤ n.quotient * 10 ^ more := by exact_mod_cast beyond
  have grown : n.quotient * 10 ^ more ≤ n.quotient * 10 ^ (more + extra) :=
    Nat.mul_le_mul_left _ (Nat.pow_le_pow_right (by decide) (Nat.le_add_right _ _))
  calc (Decimal.mantissaBound : ℚ) ≤ n.quotient * 10 ^ more := digits
    _ ≤ n.quotient * 10 ^ (more + extra) := by exact_mod_cast grown
    _ ≤ (n.quotient + n.remainder / n.divisor) * 10 ^ (more + extra) :=
      mul_le_mul_of_nonneg_right (le_add_of_nonneg_right approaches.fraction_nonneg)
        (pow_nonneg (by norm_num) _)

theorem overflow (approaches : n.Approaches x) {more : ℕ}
    (beyond : Decimal.mantissaBound ≤ n.quotient * 10 ^ more)
    (enough : Decimal.maxScale + more ≤ n.room) : Rounds x Decimal.maxScale none :=
  .overflow fun _ _ => approaches.unfit beyond (enough.trans (Nat.le_add_left _ _))

theorem closes (approaches : n.Approaches x) (scaled : n.room ≤ Decimal.maxScale)
    (full : n.room = 0 ∨ Decimal.mantissaBound ≤ n.quotient * 10 ^ 1) :
    Closes x Decimal.maxScale n.scale where
  le := Nat.sub_le _ _
  beyond finer le above := by
    simp only [LongDivision.scale] at above
    rcases full with none | beyond
    · omega
    · exact approaches.unfit beyond (by omega)

theorem even_rounds (approaches : n.Approaches x) (bounded : n.quotient < Decimal.mantissaBound)
    (even : n.remainder = 0) (scaled : n.room ≤ Decimal.maxScale) :
    Rounds x Decimal.maxScale (some (Magnitude.toRat ⟨n.quotient, n.scale⟩)) := by
  have whole := approaches.mul_pow_scale scaled
  rw [even, Nat.cast_zero, zero_div, add_zero] at whole
  have value : Magnitude.toRat ⟨n.quotient, n.scale⟩ = x := by
    rw [Magnitude.toRat, ← whole, mul_div_cancel_right₀ _ (pow_ten_ne_zero _)]
  rw [value]
  have exactly : x * 10 ^ n.scale = ((n.quotient : ℤ) : ℚ) := by exact_mod_cast whole
  refine .of_exact exactly ?_ (Nat.sub_le _ _)
  rw [Nat.abs_cast]
  exact_mod_cast bounded

theorem round_rounds (approaches : n.Approaches x) (bounded : n.quotient < Decimal.mantissaBound)
    (scaled : n.room ≤ Decimal.maxScale)
    (full : n.room = 0 ∨ Decimal.mantissaBound ≤ n.quotient * 10 ^ 1) :
    Rounds x Decimal.maxScale (n.round?.map Magnitude.toRat) := by
  have closes := approaches.closes scaled full
  have value := approaches.mul_pow_scale scaled
  have nearest := roundsUp_nearest n.quotient approaches.remainder_lt
  rw [← value] at nearest
  unfold round?
  dsimp only
  generalize rounded : (if roundsUp n.quotient n.remainder n.divisor then n.quotient + 1
    else n.quotient) = quotient at nearest ⊢
  by_cases within : quotient < Decimal.mantissaBound
  · rw [if_pos within]
    exact closes.rounds nearest (by rw [Nat.abs_cast]; exact_mod_cast within)
  · -- the digits are carried to the bound, and the last one of it is taken back
    have most : quotient ≤ n.quotient + 1 := by
      rw [← rounded]
      split <;> omega
    obtain rfl : quotient = Decimal.mantissaBound := by omega
    have below : x * 10 ^ n.scale < Decimal.mantissaBound := by
      have whole : (n.quotient : ℚ) + 1 ≤ Decimal.mantissaBound := by exact_mod_cast bounded
      rw [value]
      linarith [approaches.fraction_lt]
    have carry := closes.carry nearest below
    rw [if_neg within]
    by_cases some_scale : n.room < Decimal.maxScale
    · have positive : n.scale ≠ 0 := (Nat.sub_pos_of_lt some_scale).ne'
      have taken : back? { n with quotient := Decimal.mantissaBound } true =
          some ⟨(Decimal.mantissaBound + 4) / 10, n.scale - 1⟩ := by
        have tenth : (if 5 < Decimal.mantissaBound % 10 || (Decimal.mantissaBound % 10 == 5 &&
            (true || Decimal.mantissaBound / 10 % 2 == 1)) then Decimal.mantissaBound / 10 + 1
            else Decimal.mantissaBound / 10) = (Decimal.mantissaBound + 4) / 10 := by decide
        rw [back?, if_pos some_scale]
        exact congrArg (fun mantissa => some (Magnitude.mk mantissa (n.scale - 1))) tenth
      rw [if_neg positive] at carry
      rw [taken]
      exact carry
    · have zero : n.scale = 0 := Nat.sub_eq_zero_of_le (Nat.not_lt.mp some_scale)
      have taken : back? { n with quotient := Decimal.mantissaBound } true = none :=
        if_neg some_scale
      rw [if_pos zero] at carry
      rw [taken]
      exact carry

/-- Taking back a digit beyond the bound rounds the number, apart from a tie with a wide divisor. -/
theorem back_rounds (approaches : n.Approaches x) (beyond : Decimal.mantissaBound ≤ n.quotient)
    (little : n.quotient < Decimal.mantissaBound + 10 ^ blockLength) :
    Rounds x Decimal.maxScale ((n.back? n.isSticky).map Magnitude.toRat) ∨
      wideBound ≤ n.divisor ∧ ∃ answer scale units, n.back? n.isSticky = some answer ∧
        RaisedTie x answer.toRat scale units := by
  have digits : Decimal.mantissaBound ≤ n.quotient * 10 ^ 0 := by rwa [pow_zero, Nat.mul_one]
  unfold back?
  by_cases some_scale : n.room < Decimal.maxScale
  · obtain ⟨scale, same⟩ : ∃ scale, n.scale = scale + 1 :=
      Nat.exists_eq_succ_of_ne_zero (Nat.sub_pos_of_lt some_scale).ne'
    have room : scale + 1 + n.room = Decimal.maxScale := by
      rw [← same]
      exact Nat.sub_add_cancel some_scale.le
    have closes : Closes x Decimal.maxScale scale :=
      ⟨by omega, fun finer le above => approaches.unfit digits (by omega)⟩
    have more := approaches.mul_pow_scale some_scale.le
    rw [same] at more
    have least := approaches.fraction_nonneg
    have most := approaches.fraction_lt
    have small := tenth_succ_lt little
    have value : x * 10 ^ scale = (n.quotient + n.remainder / n.divisor) / 10 := by
      rw [← more, pow_succ, ← mul_assoc, mul_div_cancel_right₀ _ (by norm_num)]
    rw [if_pos some_scale, same, Nat.add_sub_cancel]
    by_cases misled : (n.remainder / n.divisor : ℚ) = 0 ∧ n.quotient % 10 = 5 ∧
        Even (n.quotient / 10) ∧ wideBound ≤ n.divisor
    · obtain ⟨none, five, even, wide⟩ := misled
      have sticky : n.isSticky = true := by simp [isSticky, wide]
      rw [none, add_zero] at more
      refine Or.inr ⟨wide, ⟨n.quotient / 10 + 1, scale⟩, scale, n.quotient / 10, ?_, ?_⟩
      · simp [five, sticky]
      · exact raisedTie_of_five closes (by omega) more five even beyond little
    · have divisor : (n.divisor : ℚ) ≠ 0 := by exact_mod_cast approaches.divisor_pos.ne'
      have nearest := back_nearest n.quotient n.isSticky least most
        (fun left => by
          have uneven : n.remainder ≠ 0 := by
            rintro zero
            simp [zero] at left
          simp [isSticky, isExact, uneven])
        (fun none five sticky => by
          have even : n.remainder = 0 := by simpa [divisor] using none
          have wide : wideBound ≤ n.divisor := by simpa [isSticky, isExact, even] using sticky
          exact Nat.not_even_iff_odd.mp fun even => misled ⟨none, five, even, wide⟩)
      rw [← value] at nearest
      refine Or.inl (closes.rounds nearest ?_)
      rw [Nat.abs_cast, Nat.cast_lt]
      split
      · exact small
      · exact (Nat.lt_succ_self _).trans small
  · rw [if_neg some_scale]
    exact Or.inl (approaches.overflow digits (by omega))

/-- A division rounds the number that it approaches, apart from a tie with a wide divisor. -/
theorem run_rounds (approaches : n.Approaches x) (bounded : n.quotient < Decimal.mantissaBound)
    (inexact : Bool) :
    Rounds x Decimal.maxScale ((n.run? inexact).map (·.1.toRat)) ∨
      wideBound ≤ n.divisor ∧ ∃ answer flag scale units, n.run? inexact = some (answer, flag) ∧
        RaisedTie x answer.toRat scale units := by
  fun_induction run? n inexact with
  | case1 n inexact finished =>
    have even : n.remainder = 0 ∧ n.room ≤ Decimal.maxScale := by
      simpa [isExact, hasScale] using finished
    exact Or.inl (approaches.even_rounds bounded even.1 even.2)
  | case2 n inexact going count stopped =>
    -- even with one digit more there would be no scale yet
    simp only [Bool.and_eq_true, Bool.not_eq_true', decide_eq_true_eq] at stopped
    obtain ⟨⟨uneven, short⟩, unscaled⟩ := stopped
    have reach : n.stride = n.reach := stride_of_uneven (by simp [uneven])
    exact Or.inl (approaches.overflow (beyond_of_reach bounded reach.symm (by omega)) (by omega))
  | case3 n inexact going count flagged scaled none =>
    have uneven : ¬n.isExact := fun even => going <| by
      have stride := stride_of_even even
      have block : 0 < blockLength := by decide
      simp [even, hasScale]
      omega
    have reach := stride_of_uneven uneven
    have room : n.room ≤ Decimal.maxScale := by
      by_contra above
      have block : 0 < blockLength := by decide
      exact scaled (by simp [uneven]; omega)
    have full : n.room = 0 ∨ Decimal.mantissaBound ≤ n.quotient * 10 ^ 1 := by
      rcases Nat.eq_zero_or_pos n.room with zero | positive
      · exact Or.inl zero
      · have block : 0 < blockLength := by decide
        exact Or.inr (beyond_of_reach bounded (reach.symm.trans none) (by omega))
    have rounds := approaches.round_rounds bounded room full
    rw [Option.map_map]
    exact Or.inl rounds
  | case4 n inexact going count flagged scaled pos drawable next within ih =>
    exact ih (approaches.draw (stride_le_room bounded)) within
  | case5 n inexact going count flagged scaled pos drawable next beyond =>
    have few := stride_le_block ⟨bounded, approaches.remainder_lt⟩
    have little := draw_quotient_lt approaches.remainder_lt few drawable
    have drawn := approaches.draw (stride_le_room bounded)
    rcases drawn.back_rounds (Nat.not_lt.mp beyond) little with
      rounds | ⟨wide, answer, scale, units, taken, raised⟩
    · rw [Option.map_map]
      exact Or.inl rounds
    · exact Or.inr ⟨wide, answer, flagged, scale, units, by rw [taken]; rfl, raised⟩
  | case6 n inexact going count scaled pos beyond =>
    have beyond : Decimal.mantissaBound ≤ n.quotient * 10 ^ n.stride := Nat.not_lt.mp beyond
    by_cases even : n.isExact
    · have stride := stride_of_even even
      exact Or.inl (approaches.overflow beyond (by omega))
    · -- the digits that can be drawn keep within the bound
      rw [stride_of_uneven even] at beyond
      exact absurd (reach_spec bounded).2.1 (Nat.not_lt.mpr beyond)

end Approaches

end LongDivision

end ExactCalc
