import ExactCalc.Decimal.Printing
import ExactCalc.Proofs.Decimal.LiteralReading

/-! Writing a decimal and reading it back give the same mantissa and the same scale.

The text of a number within the bounds is a literal of as many decimals as the number has, so
nothing is rounded when it is read.
-/

set_option autoImplicit false

namespace ExactCalc

/-! ## Digits of a number -/

theorem allDigits_toDigits (number : ℕ) : AllDigits (Nat.toDigits 10 number) := by
  intro c member
  exact Nat.isDigit_of_mem_toDigits (by decide) (by decide) member

theorem toDigits_ne_nil (number : ℕ) : Nat.toDigits 10 number ≠ [] :=
  List.ne_nil_of_length_pos Nat.length_toDigits_pos

theorem digitsValue_eq_ofDigitChars (digits : List Char) :
    digitsValue digits = Nat.ofDigitChars 10 digits 0 := by
  unfold digitsValue Nat.ofDigitChars digitValue
  congr 1
  funext value digit
  rw [Nat.mul_comm]

theorem digitsValue_toDigits (number : ℕ) : digitsValue (Nat.toDigits 10 number) = number := by
  rw [digitsValue_eq_ofDigitChars]
  exact Nat.ofDigitChars_toDigits (by decide) (by decide)

theorem digitValue_digitChar {digit : ℕ} (small : digit < 10) :
    digitValue digit.digitChar = digit := by
  rw [digitValue, Nat.toNat_digitChar_of_lt_ten small]
  exact Nat.add_sub_cancel_left 48 digit

@[simp] theorem length_fixedDigits (width number : ℕ) :
    (fixedDigits width number).length = width := by
  induction width generalizing number with
  | zero => rfl
  | succ width ih => simp [fixedDigits, ih]

theorem allDigits_fixedDigits (width number : ℕ) : AllDigits (fixedDigits width number) := by
  induction width generalizing number with
  | zero => exact nofun
  | succ width ih =>
    have last : AllDigits [(number % 10).digitChar] := by
      simp [AllDigits, Nat.isDigit_digitChar, Nat.mod_lt]
    exact List.forall_mem_append.mpr ⟨ih (number / 10), last⟩

theorem digitsValue_fixedDigits (width number : ℕ) (small : number < 10 ^ width) :
    digitsValue (fixedDigits width number) = number := by
  induction width generalizing number with
  | zero =>
    obtain rfl : number = 0 := by simpa using small
    rfl
  | succ width ih =>
    have fewer : number / 10 < 10 ^ width := by
      rw [Nat.div_lt_iff_lt_mul (by decide), ← pow_succ]
      exact small
    have last : digitsValue [(number % 10).digitChar] = number % 10 := by
      rw [digitsValue_cons, digitValue_digitChar (Nat.mod_lt _ (by decide))]
      simp [digitsValue]
    rw [fixedDigits, digitsValue_append, ih _ fewer, last, List.length_singleton, pow_one]
    exact Nat.div_add_mod' number 10

/-! ## The text of a number -/

namespace Magnitude

theorem print_of_scale_zero {m : Magnitude} (whole : m.scale = 0) :
    m.print = Nat.toDigits 10 m.mantissa := by
  simp [print, whole]

theorem print_of_scale_pos {m : Magnitude} (pointed : m.scale ≠ 0) :
    m.print = Nat.toDigits 10 (m.mantissa / 10 ^ m.scale) ++
      '.' :: fixedDigits m.scale (m.mantissa % 10 ^ m.scale) := by
  simp [print, pointed]

theorem isDecimalLiteral_print (m : Magnitude) : IsDecimalLiteral m.print := by
  by_cases whole : m.scale = 0
  · rw [print_of_scale_zero whole]
    exact .whole (toDigits_ne_nil _) (allDigits_toDigits _)
  · rw [print_of_scale_pos whole]
    exact .pointed (toDigits_ne_nil _) (allDigits_toDigits _) (allDigits_fixedDigits _ _)

theorem literalMagnitude_print (m : Magnitude) : literalMagnitude m.print = m := by
  obtain ⟨mantissa, scale⟩ := m
  by_cases whole : scale = 0
  · subst whole
    rw [print_of_scale_zero rfl, literalMagnitude_whole (allDigits_toDigits _),
      digitsValue_toDigits]
  · rw [print_of_scale_pos whole, literalMagnitude_pointed (allDigits_toDigits _),
      digitsValue_append, digitsValue_toDigits, length_fixedDigits,
      digitsValue_fixedDigits _ _ (Nat.mod_lt _ (pow_ten_pos scale)), Nat.div_add_mod']

/-- A mantissa has 29 digits at most, so with many decimals few digits are left before the point. -/
theorem length_print_le {m : Magnitude} (fits : m.Fits) : m.print.length ≤ 30 := by
  have scale : m.scale ≤ 28 := fits.scale_le
  have mantissa : m.mantissa < 10 ^ 29 := fits.mantissa_lt.trans_le (by decide)
  by_cases whole : m.scale = 0
  · rw [print_of_scale_zero whole]
    have digits := (Nat.length_toDigits_le_iff (by decide) (by decide)).mpr mantissa
    omega
  · have fewer : m.mantissa / 10 ^ m.scale < 10 ^ (29 - m.scale) := by
      rw [Nat.div_lt_iff_lt_mul (pow_ten_pos m.scale), ← pow_add, Nat.sub_add_cancel (by omega)]
      exact mantissa
    have digits := (Nat.length_toDigits_le_iff (by decide) (by omega)).mpr fewer
    rw [print_of_scale_pos whole, List.length_append, List.length_cons, length_fixedDigits]
    omega

theorem isLexeme_print (m : Magnitude) : Token.IsLexeme m.print := m.isDecimalLiteral_print.isLexeme

end Magnitude

namespace Decimal

theorem read_print {m : Magnitude} (fits : m.Fits) :
    Decimal.read m.print = .ok ⟨false, m.mantissa, m.scale⟩ := by
  rw [read_lexeme_ok_iff m.isLexeme_print]
  refine ⟨m.isDecimalLiteral_print, rfl, ?_⟩
  rw [m.literalMagnitude_print]
  exact fits.roundsTo_self

/-- A value can be written out in 31 characters: a sign, a point and 29 digits. -/
theorem length_print_le {d : Decimal} (within : d.Representable) : d.print.length ≤ 31 := by
  have fits : d.magnitude.Fits := ⟨within.mantissa_lt, within.scale_le⟩
  have unsigned := Magnitude.length_print_le fits
  rw [print]
  split
  · exact Nat.succ_le_succ unsigned
  · exact unsigned.trans (Nat.le_succ 30)

theorem head_print_of_nonneg {d : Decimal} (nonneg : d.negative = false) :
    d.print.head? ≠ some '-' := by
  have unsigned : d.print = Magnitude.print ⟨d.mantissa, d.scale⟩ := by simp [print, nonneg]
  rw [unsigned]
  intro minus
  have literal := (Magnitude.isLexeme_print ⟨d.mantissa, d.scale⟩).2 _ (List.mem_of_mem_head? minus)
  cases literal

end Decimal

end ExactCalc
