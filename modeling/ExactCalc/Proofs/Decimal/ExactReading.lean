import ExactCalc.Decimal.Reading
import ExactCalc.Proofs.Decimal.ExactArithmetic
import Mathlib.Data.List.TakeWhile

/-! Literals whose value is representable are read without rounding.

The reader may stop taking digits before the last one. The digits that it leaves out are zeros
then, and so is the one that it rounds by.
-/

set_option autoImplicit false

namespace ExactCalc

def AllDigits (text : List Char) : Prop := ∀ c ∈ text, c.isDigit

instance (text : List Char) : Decidable (AllDigits text) :=
  List.decidableBAll (fun c : Char => c.isDigit = true) text

theorem AllDigits.head {c : Char} {rest : List Char} (all : AllDigits (c :: rest)) : c.isDigit :=
  all c List.mem_cons_self

theorem AllDigits.tail {c : Char} {rest : List Char} (all : AllDigits (c :: rest)) :
    AllDigits rest :=
  fun other member => all other (List.mem_cons_of_mem c member)

theorem AllDigits.ne_point {text : List Char} (all : AllDigits text) :
    ∀ c ∈ text, (c != '.') = true := by
  intro c member
  have digit := all c member
  rw [bne_iff_ne]
  rintro rfl
  cases digit

/-- Digits with at most one point among them, and at least one digit:
`digit+ ('.' digit*)?` or `'.' digit+`. -/
inductive IsDecimalLiteral : List Char → Prop where
  | whole {whole : List Char} : whole ≠ [] → AllDigits whole → IsDecimalLiteral whole
  | pointed {whole decimals : List Char} : whole ≠ [] → AllDigits whole → AllDigits decimals →
      IsDecimalLiteral (whole ++ '.' :: decimals)
  | bare {decimals : List Char} : decimals ≠ [] → AllDigits decimals →
      IsDecimalLiteral ('.' :: decimals)

/-- The number that a literal stands for, with the decimals after its point. -/
def literalMagnitude (lexeme : List Char) : Magnitude :=
  let whole := lexeme.takeWhile (· != '.')
  let decimals := (lexeme.dropWhile (· != '.')).drop 1
  ⟨digitsValue (whole ++ decimals), decimals.length⟩

/-! ## The number that digits stand for -/

theorem digitValue_lt {c : Char} (digit : c.isDigit) : digitValue c < 10 := by
  simp only [Char.isDigit, Bool.and_eq_true, decide_eq_true_eq] at digit
  have below : c.toNat ≤ 57 := UInt32.le_iff_toNat_le.mp digit.2
  have zero : '0'.toNat = 48 := rfl
  rw [digitValue, zero]
  omega

theorem foldl_digits (start : ℕ) (digits : List Char) :
    digits.foldl (fun value digit => value * 10 + digitValue digit) start =
      start * 10 ^ digits.length + digitsValue digits := by
  induction digits generalizing start with
  | nil => simp [digitsValue]
  | cons c rest ih =>
    rw [digitsValue, List.foldl_cons, List.foldl_cons, ih, ih (0 * 10 + digitValue c),
      List.length_cons, pow_succ]
    ring

theorem digitsValue_append (first rest : List Char) :
    digitsValue (first ++ rest) = digitsValue first * 10 ^ rest.length + digitsValue rest := by
  rw [digitsValue, List.foldl_append, foldl_digits]
  rfl

theorem digitsValue_cons (c : Char) (rest : List Char) :
    digitsValue (c :: rest) = digitValue c * 10 ^ rest.length + digitsValue rest := by
  rw [digitsValue, List.foldl_cons, foldl_digits]
  simp

theorem digitsValue_lt {digits : List Char} (all : AllDigits digits) :
    digitsValue digits < 10 ^ digits.length := by
  induction digits with
  | nil => simp [digitsValue]
  | cons c rest ih =>
    have first := digitValue_lt all.head
    have later := ih all.tail
    rw [digitsValue_cons, List.length_cons, pow_succ]
    have leading : digitValue c * 10 ^ rest.length ≤ 9 * 10 ^ rest.length :=
      Nat.mul_le_mul_right _ (by omega)
    omega

namespace Magnitude

/-! ## Digits after the point -/

theorem checkIgnored_of_digits {digits : List Char} (all : AllDigits digits) :
    checkIgnored digits = .ok () := by
  induction digits with
  | nil => rfl
  | cons c rest ih =>
    rw [checkIgnored, all.head]
    exact ih all.tail

def append (m : Magnitude) (digits : List Char) : Magnitude :=
  ⟨m.mantissa * 10 ^ digits.length + digitsValue digits, m.scale + digits.length⟩

theorem append_cons (m : Magnitude) (c : Char) (rest : List Char) :
    m.append (c :: rest) = append ⟨m.mantissa * 10 + digitValue c, m.scale + 1⟩ rest := by
  simp only [append, digitsValue_cons, List.length_cons, pow_succ, Magnitude.mk.injEq]
  constructor
  · ring
  · omega

/-- Digits that do not fit in are zeros. -/
theorem digitsValue_eq_zero {m goal : Magnitude} (fits : goal.Fits) {c : Char} {rest : List Char}
    (all : AllDigits (c :: rest)) (same : (m.append (c :: rest)).toRat = goal.toRat)
    (left : ¬(m.mantissa * 10 + digitValue c < Decimal.mantissaBound ∧
      m.scale ≠ Decimal.maxScale)) :
    digitsValue (c :: rest) = 0 := by
  obtain ⟨enough, zeros⟩ := fitsAfter_of_fits fits same
  have goal_scale := fits.scale_le
  rcases Nat.lt_or_ge m.scale goal.scale with before | after
  · -- then the first of the digits would have fitted in
    rw [append_cons] at enough
    have digit : m.mantissa * 10 + digitValue c < Decimal.mantissaBound := by
      refine lt_of_le_of_lt ?_ ((fitsAfter_iff _ _).mp enough).2
      rw [Nat.le_div_iff_mul_le (pow_ten_pos _)]
      refine le_trans (Nat.mul_le_mul_left _ (Nat.pow_le_pow_right (by decide) ?_))
        (Nat.le_add_right _ (digitsValue rest))
      simp only [append]
      omega
    exact absurd ⟨digit, by omega⟩ left
  · -- all decimals that the goal can have are taken already
    have many : (c :: rest).length ≤ (m.append (c :: rest)).scale - goal.scale := by
      simp only [append]
      omega
    have divides := (pow_dvd_pow 10 many).trans zeros
    have last := (Nat.dvd_add_right (Nat.dvd_mul_left _ m.mantissa)).mp divides
    exact Nat.eq_zero_of_dvd_of_lt last (digitsValue_lt all)

theorem toRat_append_zeros {m : Magnitude} {digits : List Char} (zeros : digitsValue digits = 0) :
    (m.append digits).toRat = m.toRat := by
  rw [toRat_eq_iff, append, zeros, pow_add]
  ring

theorem roundBy_zero {m : Magnitude} (bounded : m.mantissa < Decimal.mantissaBound) :
    m.roundBy 0 = .ok m := by
  simp [roundBy, bounded]

theorem readFrom_decimals {goal : Magnitude} (fits : goal.Fits) (digits : List Char)
    (all : AllDigits digits) {m : Magnitude} (within : m.Fits) {met : Bool}
    (enough : met ∨ digits ≠ []) (same : (m.append digits).toRat = goal.toRat) :
    ∃ read, readFrom m true met digits = .ok read ∧ read.Fits ∧ read.toRat = goal.toRat := by
  induction digits generalizing m met with
  | nil =>
    have met : met = true := by simpa using enough
    have unchanged : m.append [] = m := by simp [append, digitsValue]
    rw [unchanged] at same
    exact ⟨m, by rw [readFrom, if_pos met], within, same⟩
  | cons c rest ih =>
    rw [readFrom, if_pos all.head]
    by_cases room : m.mantissa * 10 + digitValue c < Decimal.mantissaBound ∧
        m.scale ≠ Decimal.maxScale
    · rw [append_cons] at same
      have taken : (⟨m.mantissa * 10 + digitValue c, m.scale + 1⟩ : Magnitude).Fits :=
        ⟨room.1, Nat.lt_of_le_of_ne within.scale_le room.2⟩
      simpa [room] using ih all.tail taken (Or.inl rfl) same
    · -- this digit rounds the number, and it is a zero
      have zeros := digitsValue_eq_zero fits all same room
      have none : digitValue c = 0 := by
        rw [digitsValue_cons] at zeros
        have := pow_ten_pos rest.length
        simp_all
      rw [toRat_append_zeros zeros] at same
      refine ⟨m, ?_, within, same⟩
      simp only [true_and, ← ne_eq, if_neg room, if_true]
      rw [none, roundBy_zero within.mantissa_lt, checkIgnored_of_digits all.tail]
      rfl

/-! ## Digits before the point -/

theorem readFrom_whole (digits : List Char) (all : AllDigits digits) (mantissa : ℕ) (met : Bool)
    (tail : List Char)
    (bounded : mantissa * 10 ^ digits.length + digitsValue digits < Decimal.mantissaBound) :
    readFrom ⟨mantissa, 0⟩ false met (digits ++ tail) =
      readFrom ⟨mantissa * 10 ^ digits.length + digitsValue digits, 0⟩ false
        (met || !digits.isEmpty) tail := by
  induction digits generalizing mantissa met with
  | nil => simp [digitsValue]
  | cons c rest ih =>
    have shifted : mantissa * 10 ^ (c :: rest).length + digitsValue (c :: rest) =
        (mantissa * 10 + digitValue c) * 10 ^ rest.length + digitsValue rest := by
      rw [digitsValue_cons, List.length_cons, pow_succ]
      ring
    rw [shifted] at bounded ⊢
    have taken : mantissa * 10 + digitValue c < Decimal.mantissaBound := by
      refine lt_of_le_of_lt ?_ bounded
      exact (Nat.le_mul_of_pos_right _ (pow_ten_pos _)).trans (Nat.le_add_right _ _)
    rw [List.cons_append, readFrom, if_pos all.head]
    simpa [taken] using ih all.tail (mantissa * 10 + digitValue c) true bounded

theorem literalMagnitude_pointed {whole : List Char} (all : AllDigits whole)
    (decimals : List Char) :
    literalMagnitude (whole ++ '.' :: decimals) =
      ⟨digitsValue (whole ++ decimals), decimals.length⟩ := by
  simp only [literalMagnitude, List.takeWhile_append_of_pos all.ne_point,
    List.dropWhile_append_of_pos all.ne_point]
  simp

theorem literalMagnitude_whole {whole : List Char} (all : AllDigits whole) :
    literalMagnitude whole = ⟨digitsValue whole, 0⟩ := by
  simp only [literalMagnitude, List.takeWhile_eq_self_iff.mpr all.ne_point,
    List.dropWhile_eq_nil_iff.mpr all.ne_point]
  simp

theorem digitsValue_whole_lt {goal : Magnitude} (fits : goal.Fits) (whole decimals : List Char)
    (same : toRat ⟨digitsValue (whole ++ decimals), decimals.length⟩ = goal.toRat) :
    digitsValue whole < Decimal.mantissaBound := by
  have enough := ((fitsAfter_iff _ _).mp (fitsAfter_of_fits fits same).1).2
  refine lt_of_le_of_lt ?_ enough
  rw [Nat.le_div_iff_mul_le (pow_ten_pos _), digitsValue_append]
  refine le_trans (Nat.mul_le_mul_left _ (Nat.pow_le_pow_right (by decide) ?_))
    (Nat.le_add_right _ (digitsValue decimals))
  exact Nat.sub_le _ _

theorem readFrom_pointed {goal : Magnitude} (fits : goal.Fits) {whole decimals : List Char}
    (allWhole : AllDigits whole) (allDecimals : AllDigits decimals)
    (enough : whole ≠ [] ∨ decimals ≠ [])
    (same : toRat ⟨digitsValue (whole ++ decimals), decimals.length⟩ = goal.toRat) :
    ∃ read, readFrom ⟨0, 0⟩ false false (whole ++ '.' :: decimals) = .ok read ∧ read.Fits ∧
      read.toRat = goal.toRat := by
  have bounded := digitsValue_whole_lt fits whole decimals same
  rw [readFrom_whole whole allWhole 0 false _ (by simpa using bounded), readFrom]
  have appended : append ⟨digitsValue whole, 0⟩ decimals =
      ⟨digitsValue (whole ++ decimals), decimals.length⟩ := by
    simp [append, digitsValue_append]
  rw [← appended] at same
  have start : Fits ⟨digitsValue whole, 0⟩ := ⟨bounded, Nat.zero_le _⟩
  have met : (!whole.isEmpty) = true ∨ decimals ≠ [] := by simpa using enough
  simpa using readFrom_decimals fits decimals allDecimals start met same

theorem readFrom_digits {goal : Magnitude} (fits : goal.Fits) {whole : List Char}
    (nonempty : whole ≠ []) (all : AllDigits whole)
    (same : toRat ⟨digitsValue whole, 0⟩ = goal.toRat) :
    ∃ read, readFrom ⟨0, 0⟩ false false whole = .ok read ∧ read.Fits ∧
      read.toRat = goal.toRat := by
  have bounded := digitsValue_whole_lt fits whole [] (by simpa using same)
  have ended := readFrom_whole whole all 0 false [] (by simpa using bounded)
  rw [List.append_nil] at ended
  refine ⟨⟨digitsValue whole, 0⟩, ?_, ⟨bounded, Nat.zero_le _⟩, same⟩
  rw [ended, readFrom]
  simp [nonempty]

end Magnitude

namespace Decimal

theorem read_of_unsigned {c : Char} {rest : List Char} (minus : c ≠ '-') (plus : c ≠ '+') :
    read (c :: rest) =
      (Magnitude.signed · false) <$> Magnitude.readFrom ⟨0, 0⟩ false false (c :: rest) := by
  unfold read
  split
  next same => cases same
  next same => exact absurd (List.cons.inj same).1 minus
  next same => exact absurd (List.cons.inj same).1 plus
  next => rfl

theorem isExactly_signed {m : Magnitude} (fits : m.Fits) :
    (m.signed false).IsExactly m.toRat :=
  ⟨fits.signed false, m.toRat_signed false⟩

/-- A literal of a representable number is read as exactly this number. -/
theorem read_exact {lexeme : List Char} (literal : IsDecimalLiteral lexeme)
    (representable : IsRepresentable (literalMagnitude lexeme).toRat) :
    ∃ value, read lexeme = .ok value ∧ value.IsExactly (literalMagnitude lexeme).toRat := by
  obtain ⟨goal, fits, same⟩ := representable.exists_fits
  rw [abs_of_nonneg (Magnitude.toRat_nonneg _)] at same
  have ended : ∃ m, Magnitude.readFrom ⟨0, 0⟩ false false lexeme = .ok m ∧ m.Fits ∧
      m.toRat = goal.toRat := by
    cases literal with
    | whole nonempty all =>
      rw [Magnitude.literalMagnitude_whole all] at same
      exact Magnitude.readFrom_digits fits nonempty all same.symm
    | pointed nonempty allWhole allDecimals =>
      rw [Magnitude.literalMagnitude_pointed allWhole] at same
      exact Magnitude.readFrom_pointed fits allWhole allDecimals (Or.inl nonempty) same.symm
    | @bare decimals nonempty all =>
      have none : AllDigits [] := nofun
      have value := Magnitude.literalMagnitude_pointed none decimals
      rw [List.nil_append] at value
      rw [value] at same
      exact Magnitude.readFrom_pointed fits none all (Or.inr nonempty) same.symm
  obtain ⟨m, ran, within, exactly⟩ := ended
  cases lexeme with
  | nil => cases ran
  | cons c rest =>
    -- a sign would have been refused
    have minus : c ≠ '-' := by
      rintro rfl
      cases ran
    have plus : c ≠ '+' := by
      rintro rfl
      cases ran
    rw [read_of_unsigned minus plus, ran, ← same, ← exactly]
    exact ⟨_, rfl, isExactly_signed within⟩

end Decimal

end ExactCalc
