import ExactCalc.Proofs.Decimal.ExactReading
import ExactCalc.Proofs.Refusal
import ExactCalc.Proofs.Token.Scanning
import Mathlib.Data.Rat.Floor

/-! Which runs of digits and points are read as decimals, and as which.

A run is read if it has the syntax of a literal and if its number fits once decimals are rounded
away, a half upwards. As many decimals are kept as there are and fit. The reader decides this at
the first digit that does not fit, and looks at the digits behind it for a second point only.
-/

set_option autoImplicit false

namespace ExactCalc

namespace Magnitude

/-! ## Rounding to some decimals -/

/-- The number in units of its decimal `kept`, rounded to the nearest, a half upwards. -/
def unitsAt (m : Magnitude) (kept : ℕ) : ℕ := ⌊m.toRat * 10 ^ kept + 1 / 2⌋₊

structure Keeps (m : Magnitude) (kept : ℕ) : Prop where
  written : kept ≤ m.scale
  scale_le : kept ≤ Decimal.maxScale
  mantissa_lt : m.unitsAt kept < Decimal.mantissaBound

/-- The second number has as many decimals of the first one as there are and fit, with the others
rounded away. -/
structure RoundsTo (m n : Magnitude) : Prop where
  keeps : m.Keeps n.scale
  most : ∀ kept, m.Keeps kept → kept ≤ n.scale
  mantissa : n.mantissa = m.unitsAt n.scale

theorem RoundsTo.unique {m n o : Magnitude} (first : m.RoundsTo n) (second : m.RoundsTo o) :
    n = o := by
  have scale := Nat.le_antisymm (second.most _ first.keeps) (first.most _ second.keeps)
  obtain ⟨mantissa, kept⟩ := n
  obtain rfl : kept = o.scale := scale
  rw [show mantissa = o.mantissa from first.mantissa.trans second.mantissa.symm]

/-- The answer is the number with as many decimals as fit, or a refusal because it does not fit
with any number of them. -/
inductive IsRounding (m : Magnitude) : Except ReadError Magnitude → Prop where
  | fits {n : Magnitude} : m.RoundsTo n → IsRounding m (.ok n)
  | unfit {cause : ReadError} : (∀ kept, ¬m.Keeps kept) → IsRounding m (.error cause)

theorem unitsAt_lt_iff (m : Magnitude) (kept bound : ℕ) :
    m.unitsAt kept < bound ↔ m.toRat * 10 ^ kept + 1 / 2 < bound := by
  have positive := mul_nonneg m.toRat_nonneg (pow_nonneg (by norm_num : (0 : ℚ) ≤ 10) kept)
  exact Nat.floor_lt (by linarith)

theorem unitsAt_eq_iff (m : Magnitude) (kept units : ℕ) :
    m.unitsAt kept = units ↔
      units ≤ m.toRat * 10 ^ kept + 1 / 2 ∧ m.toRat * 10 ^ kept + 1 / 2 < units + 1 := by
  have positive := mul_nonneg m.toRat_nonneg (pow_nonneg (by norm_num : (0 : ℚ) ≤ 10) kept)
  exact Nat.floor_eq_iff (by linarith)

theorem unitsAt_scale (m : Magnitude) : m.unitsAt m.scale = m.mantissa := by
  rw [unitsAt_eq_iff, toRat, div_mul_cancel₀ _ (pow_ten_ne_zero m.scale)]
  constructor <;> linarith

theorem Fits.roundsTo_self {m : Magnitude} (fits : m.Fits) : m.RoundsTo m where
  keeps := ⟨Nat.le_refl _, fits.scale_le, by rw [unitsAt_scale]; exact fits.mantissa_lt⟩
  most _ keeps := keeps.written
  mantissa := m.unitsAt_scale.symm

theorem exists_keeps_iff (m : Magnitude) :
    (∃ kept, m.Keeps kept) ↔ m.unitsAt 0 < Decimal.mantissaBound := by
  constructor
  · rintro ⟨kept, keeps⟩
    have bound := (unitsAt_lt_iff m kept _).mp keeps.mantissa_lt
    have grown : m.toRat * 1 ≤ m.toRat * 10 ^ kept :=
      mul_le_mul_of_nonneg_left (one_le_pow₀ (by norm_num)) m.toRat_nonneg
    rw [unitsAt_lt_iff, pow_zero]
    linarith
  · exact fun fits => ⟨0, Nat.zero_le _, Nat.zero_le _, fits⟩

theorem not_keeps_of_le {m : Magnitude} (beyond : (Decimal.mantissaBound : ℚ) ≤ m.toRat)
    (kept : ℕ) : ¬m.Keeps kept := by
  intro keeps
  have bound := (unitsAt_lt_iff m 0 _).mp (m.exists_keeps_iff.mp ⟨kept, keeps⟩)
  rw [pow_zero] at bound
  linarith

/-! ## The first digit that does not fit -/

section

variable {m : Magnitude} {c : Char} {rest : List Char}

theorem toRat_append (m : Magnitude) (digits : List Char) :
    (m.append digits).toRat * 10 ^ m.scale =
      m.mantissa + (digitsValue digits : ℚ) / 10 ^ digits.length := by
  have scale := pow_ten_ne_zero m.scale
  have length := pow_ten_ne_zero digits.length
  rw [append, toRat, pow_add]
  push_cast
  field_simp

theorem digitsValue_between (all : AllDigits (c :: rest)) :
    (digitValue c : ℚ) / 10 ≤ (digitsValue (c :: rest) : ℚ) / 10 ^ (c :: rest).length ∧
      (digitsValue (c :: rest) : ℚ) / 10 ^ (c :: rest).length < (digitValue c + 1) / 10 := by
  have positive : (0 : ℚ) < 10 ^ rest.length := pow_pos (by norm_num) _
  have later : (digitsValue rest : ℚ) < 10 ^ rest.length := by
    exact_mod_cast digitsValue_lt all.tail
  have split : (digitsValue (c :: rest) : ℚ) / 10 ^ (c :: rest).length =
      (digitValue c + (digitsValue rest : ℚ) / 10 ^ rest.length) / 10 := by
    rw [digitsValue_cons, List.length_cons, pow_succ]
    push_cast
    field_simp
  have fraction : 0 ≤ (digitsValue rest : ℚ) / 10 ^ rest.length :=
    div_nonneg (Nat.cast_nonneg _) positive.le
  have proper : (digitsValue rest : ℚ) / 10 ^ rest.length < 1 := (div_lt_one positive).mpr later
  rw [split]
  constructor <;> linarith

/-- Behind a digit that does not fit no decimal is kept. -/
theorem Keeps.le_of_left (all : AllDigits (c :: rest))
    (left : ¬(m.mantissa * 10 + digitValue c < Decimal.mantissaBound ∧
      m.scale ≠ Decimal.maxScale)) {kept : ℕ} (keeps : (m.append (c :: rest)).Keeps kept) :
    kept ≤ m.scale := by
  by_contra above
  have scale := keeps.scale_le
  have beyond : Decimal.mantissaBound ≤ m.mantissa * 10 + digitValue c := by
    by_contra below
    exact left ⟨Nat.not_le.mp below, by omega⟩
  have units := (unitsAt_lt_iff _ kept _).mp keeps.mantissa_lt
  -- one decimal more already takes the number beyond the bound
  obtain ⟨more, rfl⟩ := Nat.exists_eq_add_of_le (show m.scale + 1 ≤ kept by omega)
  have aligned := toRat_append m (c :: rest)
  have least := (digitsValue_between all).1
  have grown : (m.append (c :: rest)).toRat * 10 ^ (m.scale + 1) ≤
      (m.append (c :: rest)).toRat * 10 ^ (m.scale + 1 + more) :=
    mul_le_mul_of_nonneg_left (pow_le_pow_right₀ (by norm_num) (by omega)) (toRat_nonneg _)
  have cast : (Decimal.mantissaBound : ℚ) ≤ m.mantissa * 10 + digitValue c := by
    exact_mod_cast beyond
  rw [pow_succ, ← mul_assoc, aligned] at grown
  linarith

theorem unitsAt_append (all : AllDigits (c :: rest)) :
    (m.append (c :: rest)).unitsAt m.scale =
      if 5 ≤ digitValue c then m.mantissa + 1 else m.mantissa := by
  obtain ⟨least, most⟩ := digitsValue_between all
  rw [unitsAt_eq_iff, toRat_append]
  split
  next up =>
    have up : (5 : ℚ) ≤ digitValue c := by exact_mod_cast up
    have small : (digitValue c : ℚ) ≤ 9 := by
      exact_mod_cast Nat.le_of_lt_succ (digitValue_lt all.head)
    push_cast
    constructor <;> linarith
  next down =>
    have down : (digitValue c : ℚ) ≤ 4 := by
      exact_mod_cast Nat.le_of_lt_succ (Nat.not_le.mp down)
    constructor <;> linarith [Nat.cast_nonneg (α := ℚ) (digitValue c)]

theorem unitsAt_append_carry (all : AllDigits (c :: rest)) (up : 5 ≤ digitValue c)
    (carry : m.mantissa + 1 = Decimal.mantissaBound) {scale : ℕ} (same : m.scale = scale + 1) :
    (m.append (c :: rest)).unitsAt scale = (Decimal.mantissaBound + 4) / 10 := by
  obtain ⟨least, most⟩ := digitsValue_between all
  have aligned := toRat_append m (c :: rest)
  have up : (5 : ℚ) ≤ digitValue c := by exact_mod_cast up
  have small : (digitValue c : ℚ) ≤ 9 := by
    exact_mod_cast Nat.le_of_lt_succ (digitValue_lt all.head)
  have full : (m.mantissa : ℚ) + 1 = Decimal.mantissaBound := by exact_mod_cast carry
  have bound : (Decimal.mantissaBound : ℚ) = 79228162514264337593543950336 := by
    norm_num [Decimal.mantissaBound]
  have tenth : (Decimal.mantissaBound + 4) / 10 = 7922816251426433759354395034 := by decide
  rw [same, pow_succ, ← mul_assoc] at aligned
  rw [bound] at full
  rw [unitsAt_eq_iff, tenth]
  push_cast
  constructor <;> linarith

theorem roundBy_isRounding (all : AllDigits (c :: rest)) (within : m.Fits)
    (left : ¬(m.mantissa * 10 + digitValue c < Decimal.mantissaBound ∧
      m.scale ≠ Decimal.maxScale)) :
    (m.append (c :: rest)).IsRounding (m.roundBy (digitValue c)) := by
  have most (kept : ℕ) (keeps : (m.append (c :: rest)).Keeps kept) := keeps.le_of_left all left
  have written : m.scale ≤ (m.append (c :: rest)).scale := Nat.le_add_right _ _
  have units := unitsAt_append (m := m) all
  rw [roundBy, ← units]
  by_cases fitting : (m.append (c :: rest)).unitsAt m.scale < Decimal.mantissaBound
  · rw [if_pos fitting]
    exact .fits ⟨⟨written, within.scale_le, fitting⟩, most, rfl⟩
  · -- the carry goes up to the bound, and costs a decimal if there is one
    have below := within.mantissa_lt
    have up : 5 ≤ digitValue c := by
      by_contra down
      rw [if_neg down] at units
      omega
    rw [if_pos up] at units
    have full : m.mantissa + 1 = Decimal.mantissaBound := by omega
    have carry := units.trans full
    rw [if_neg fitting, carry]
    cases same : m.scale with
    | zero =>
      refine .unfit fun kept keeps => fitting ?_
      obtain rfl : kept = m.scale := by have := most kept keeps; omega
      exact keeps.mantissa_lt
    | succ scale =>
      have less := unitsAt_append_carry all up full same
      have bounds := within.scale_le
      refine .fits ⟨⟨?_, ?_, ?_⟩, ?_, less.symm⟩
      · change scale ≤ _
        omega
      · change scale ≤ _
        omega
      · change (m.append (c :: rest)).unitsAt scale < _
        rw [less]
        decide
      · intro kept keeps
        have small := most kept keeps
        have other : kept ≠ m.scale := by
          rintro rfl
          exact fitting keeps.mantissa_lt
        change kept ≤ scale
        omega

end

/-! ## Digits behind the point -/

/-- Decimals are read as far as they fit, with the rest rounded away. -/
theorem readFrom_isRounding (digits : List Char) (all : AllDigits digits) {m : Magnitude}
    (within : m.Fits) {met : Bool} (enough : met ∨ digits ≠ []) :
    (m.append digits).IsRounding (readFrom m true met digits) := by
  induction digits generalizing m met with
  | nil =>
    have met : met = true := by simpa using enough
    have unchanged : m.append [] = m := by simp [append, digitsValue]
    rw [unchanged, readFrom, if_pos met]
    exact .fits within.roundsTo_self
  | cons c rest ih =>
    rw [readFrom, if_pos all.head]
    by_cases room : m.mantissa * 10 + digitValue c < Decimal.mantissaBound ∧
        m.scale ≠ Decimal.maxScale
    · rw [append_cons]
      have taken : (⟨m.mantissa * 10 + digitValue c, m.scale + 1⟩ : Magnitude).Fits :=
        ⟨room.1, Nat.lt_of_le_of_ne within.scale_le room.2⟩
      simpa [room] using ih all.tail taken (Or.inl rfl)
    · -- nothing behind this digit changes the number
      simp only [true_and, ← ne_eq, if_neg room, if_true]
      rw [checkIgnored_of_digits all.tail]
      exact (bind_pure (m.roundBy (digitValue c))).symm ▸ roundBy_isRounding all within room

theorem checkIgnored_of_point {text : List Char} (run : ∀ c ∈ text, Token.isLiteralChar c = true)
    (point : '.' ∈ text) : ∃ cause, checkIgnored text = .error cause := by
  induction text with
  | nil => cases point
  | cons c rest ih =>
    obtain ⟨_, run⟩ := List.forall_mem_cons.mp run
    rw [checkIgnored]
    split
    · rename_i ignored
      refine ih run ((List.mem_cons.mp point).resolve_left ?_)
      rintro rfl
      cases ignored
    · split <;> exact ⟨_, rfl⟩

theorem readFrom_of_point {text : List Char} (run : ∀ c ∈ text, Token.isLiteralChar c = true)
    (point : '.' ∈ text) (m : Magnitude) (met : Bool) :
    ∃ cause, readFrom m true met text = .error cause := by
  induction text generalizing m met with
  | nil => cases point
  | cons c rest ih =>
    obtain ⟨literal, run⟩ := List.forall_mem_cons.mp run
    rw [readFrom]
    split
    · rename_i digit
      have later : '.' ∈ rest := by
        refine (List.mem_cons.mp point).resolve_left ?_
        rintro rfl
        cases digit
      by_cases room : m.mantissa * 10 + digitValue c < Decimal.mantissaBound ∧
          m.scale ≠ Decimal.maxScale
      · simpa [room] using ih run later _ true
      · -- the rounding may fail before the point is found
        obtain ⟨cause, found⟩ := checkIgnored_of_point run later
        simp only [true_and, ← ne_eq, if_neg room, if_true, found]
        cases m.roundBy (digitValue c) <;> exact ⟨_, rfl⟩
    · rename_i other
      have point : c = '.' := by simpa [Token.isLiteralChar, other] using literal
      rw [point]
      exact ⟨.twoPoints, rfl⟩

theorem readFrom_whole_beyond (digits : List Char) (all : AllDigits digits) (mantissa : ℕ)
    (met : Bool) (tail : List Char) (start : mantissa < Decimal.mantissaBound)
    (beyond : Decimal.mantissaBound ≤ mantissa * 10 ^ digits.length + digitsValue digits) :
    readFrom ⟨mantissa, 0⟩ false met (digits ++ tail) = .error .tooManyDigits := by
  induction digits generalizing mantissa met with
  | nil => simp [digitsValue] at beyond; omega
  | cons c rest ih =>
    rw [List.cons_append, readFrom, if_pos all.head]
    by_cases taken : mantissa * 10 + digitValue c < Decimal.mantissaBound
    · have shifted : mantissa * 10 ^ (c :: rest).length + digitsValue (c :: rest) =
          (mantissa * 10 + digitValue c) * 10 ^ rest.length + digitsValue rest := by
        rw [digitsValue_cons, List.length_cons, pow_succ]
        ring
      rw [shifted] at beyond
      simpa [taken] using ih all.tail _ true taken beyond
    · simp [taken]

end Magnitude

/-! ## Runs of digits and points -/

inductive LexemeShape : List Char → Prop where
  | digits {whole : List Char} : AllDigits whole → LexemeShape whole
  | pointed {whole decimals : List Char} : AllDigits whole → AllDigits decimals →
      LexemeShape (whole ++ '.' :: decimals)
  | points {whole rest : List Char} : AllDigits whole → '.' ∈ rest →
      (∀ c ∈ rest, Token.isLiteralChar c = true) → LexemeShape (whole ++ '.' :: rest)

theorem AllDigits.not_mem_point {text : List Char} (all : AllDigits text) : '.' ∉ text := by
  intro point
  cases all '.' point

theorem allDigits_or_mem_point {text : List Char}
    (run : ∀ c ∈ text, Token.isLiteralChar c = true) : AllDigits text ∨ '.' ∈ text := by
  rw [or_iff_not_imp_right]
  intro pointless c member
  have literal := run c member
  have other : c ≠ '.' := by
    rintro rfl
    exact pointless member
  simpa [Token.isLiteralChar, other] using literal

theorem LexemeShape.of_run {text : List Char}
    (run : ∀ c ∈ text, Token.isLiteralChar c = true) : LexemeShape text := by
  rcases allDigits_or_mem_point run with all | point
  · exact .digits all
  · obtain ⟨whole, rest, rfl, before⟩ := List.eq_append_cons_of_mem point
    obtain ⟨runWhole, runRest⟩ := List.forall_mem_append.mp run
    have runRest := (List.forall_mem_cons.mp runRest).2
    have all := (allDigits_or_mem_point runWhole).resolve_right before
    rcases allDigits_or_mem_point runRest with allRest | again
    · exact .pointed all allRest
    · exact .points all again runRest

theorem AllDigits.isLiteralChar {text : List Char} (all : AllDigits text) :
    ∀ c ∈ text, Token.isLiteralChar c = true := by
  intro c member
  simp [Token.isLiteralChar, all c member]

theorem IsDecimalLiteral.isLexeme {text : List Char} (literal : IsDecimalLiteral text) :
    Token.IsLexeme text := by
  cases literal with
  | whole some all => exact ⟨some, all.isLiteralChar⟩
  | pointed some all allDecimals =>
    refine ⟨by simp, List.forall_mem_append.mpr ⟨all.isLiteralChar, ?_⟩⟩
    exact List.forall_mem_cons.mpr ⟨rfl, allDecimals.isLiteralChar⟩
  | bare some all => exact ⟨by simp, List.forall_mem_cons.mpr ⟨rfl, all.isLiteralChar⟩⟩

theorem IsDecimalLiteral.one_point {text : List Char} (literal : IsDecimalLiteral text) :
    (∃ c ∈ text, c.isDigit) ∧ text.count '.' ≤ 1 := by
  have some_digit {digits : List Char} (some : digits ≠ []) (all : AllDigits digits) :
      ∃ c ∈ digits, c.isDigit := by
    obtain ⟨c, member⟩ := List.exists_mem_of_ne_nil digits some
    exact ⟨c, member, all c member⟩
  have no_point {digits : List Char} (all : AllDigits digits) : digits.count '.' = 0 :=
    List.count_eq_zero.mpr all.not_mem_point
  cases literal with
  | whole some all => exact ⟨some_digit some all, by simp [no_point all]⟩
  | pointed some all allDecimals =>
    obtain ⟨c, member, digit⟩ := some_digit some all
    exact ⟨⟨c, List.mem_append_left _ member, digit⟩,
      by simp [no_point all, no_point allDecimals]⟩
  | bare some all =>
    obtain ⟨c, member, digit⟩ := some_digit some all
    exact ⟨⟨c, List.mem_cons_of_mem _ member, digit⟩, by simp [no_point all]⟩

theorem isDecimalLiteral_iff {text : List Char}
    (run : ∀ c ∈ text, Token.isLiteralChar c = true) :
    IsDecimalLiteral text ↔ (∃ c ∈ text, c.isDigit) ∧ text.count '.' ≤ 1 := by
  refine ⟨IsDecimalLiteral.one_point, ?_⟩
  rintro ⟨⟨c, member, digit⟩, points⟩
  cases LexemeShape.of_run run with
  | digits all => exact .whole (List.ne_nil_of_mem member) all
  | @pointed whole decimals all allDecimals =>
    cases whole with
    | nil =>
      refine .bare ?_ allDecimals
      rintro rfl
      obtain rfl := List.mem_singleton.mp member
      cases digit
    | cons first whole => exact .pointed (List.cons_ne_nil _ _) all allDecimals
  | points all again _ =>
    have several := List.count_pos_iff.mpr again
    rw [List.count_append, List.count_cons_self] at points
    omega

/-! ## Reading a run -/

/-- The answer is what the number of the text rounds to, or a refusal because the text is not
written as a decimal or because its number does not fit. -/
inductive IsReading (text : List Char) : Except ReadError Magnitude → Prop where
  | read {n : Magnitude} : IsDecimalLiteral text → (literalMagnitude text).RoundsTo n →
      IsReading text (.ok n)
  | refused {cause : ReadError} :
      ¬(IsDecimalLiteral text ∧ ∃ kept, (literalMagnitude text).Keeps kept) →
      IsReading text (.error cause)

theorem Magnitude.IsRounding.isReading {text : List Char} {answer : Except ReadError Magnitude}
    (rounding : (literalMagnitude text).IsRounding answer) (literal : IsDecimalLiteral text) :
    IsReading text answer := by
  cases rounding with
  | fits rounds => exact .read literal rounds
  | unfit none => exact .refused fun ⟨_, kept, keeps⟩ => none kept keeps

namespace Magnitude

theorem readFrom_pointed_run {whole : List Char} (all : AllDigits whole) (tail : List Char) :
    readFrom ⟨0, 0⟩ false false (whole ++ '.' :: tail) =
      if digitsValue whole < Decimal.mantissaBound then
        readFrom ⟨digitsValue whole, 0⟩ true (!whole.isEmpty) tail
      else .error .tooManyDigits := by
  split
  next fits =>
    rw [readFrom_whole whole all 0 false _ (by simpa using fits), readFrom]
    simp
  next beyond =>
    exact readFrom_whole_beyond whole all 0 false _ (by decide) (by simpa using beyond)

theorem not_keeps_append {m : Magnitude} (whole : m.scale = 0)
    (beyond : Decimal.mantissaBound ≤ m.mantissa) (digits : List Char) (kept : ℕ) :
    ¬(m.append digits).Keeps kept := by
  refine not_keeps_of_le ?_ kept
  have aligned := toRat_append m digits
  have fraction : 0 ≤ (digitsValue digits : ℚ) / 10 ^ digits.length :=
    div_nonneg (Nat.cast_nonneg _) (pow_nonneg (by norm_num) _)
  have cast : (Decimal.mantissaBound : ℚ) ≤ m.mantissa := by exact_mod_cast beyond
  rw [whole, pow_zero, mul_one] at aligned
  linarith

theorem literalMagnitude_eq_append {whole : List Char} (all : AllDigits whole)
    (decimals : List Char) :
    literalMagnitude (whole ++ '.' :: decimals) = append ⟨digitsValue whole, 0⟩ decimals := by
  rw [literalMagnitude_pointed all, digitsValue_append, append, Nat.zero_add]

theorem readFrom_digits_isReading {whole : List Char} (some : whole ≠ []) (all : AllDigits whole) :
    IsReading whole (readFrom ⟨0, 0⟩ false false whole) := by
  refine IsRounding.isReading ?_ (.whole some all)
  rw [literalMagnitude_whole all]
  by_cases fits : digitsValue whole < Decimal.mantissaBound
  · have ended := readFrom_whole whole all 0 false [] (by simpa using fits)
    have within : Fits ⟨digitsValue whole, 0⟩ := ⟨fits, Nat.zero_le _⟩
    rw [List.append_nil] at ended
    rw [ended, readFrom]
    simpa [some] using IsRounding.fits within.roundsTo_self
  · have ended := readFrom_whole_beyond whole all 0 false [] (by decide) (by simpa using fits)
    have unpointed : append ⟨digitsValue whole, 0⟩ [] = ⟨digitsValue whole, 0⟩ := by
      simp [append, digitsValue]
    rw [List.append_nil] at ended
    rw [ended, ← unpointed]
    exact .unfit (not_keeps_append rfl (Nat.not_lt.mp fits) [])

theorem readFrom_pointed_isReading {whole decimals : List Char} (all : AllDigits whole)
    (allDecimals : AllDigits decimals) :
    IsReading (whole ++ '.' :: decimals)
      (readFrom ⟨0, 0⟩ false false (whole ++ '.' :: decimals)) := by
  rw [readFrom_pointed_run all]
  by_cases enough : (!whole.isEmpty) = true ∨ decimals ≠ []
  · have literal : IsDecimalLiteral (whole ++ '.' :: decimals) := by
      cases whole with
      | nil => exact .bare (by simpa using enough) allDecimals
      | cons first whole => exact .pointed (List.cons_ne_nil _ _) all allDecimals
    refine IsRounding.isReading ?_ literal
    rw [literalMagnitude_eq_append all]
    split
    next fits => exact readFrom_isRounding decimals allDecimals ⟨fits, Nat.zero_le _⟩ enough
    next beyond => exact .unfit (not_keeps_append rfl (Nat.not_lt.mp beyond) decimals)
  · -- the point stands alone
    obtain ⟨rfl, rfl⟩ : whole = [] ∧ decimals = [] := by simpa using enough
    refine .refused fun ⟨literal, _⟩ => ?_
    obtain ⟨⟨c, member, digit⟩, _⟩ := literal.one_point
    obtain rfl := List.mem_singleton.mp member
    cases digit

theorem readFrom_points_isReading {whole rest : List Char} (all : AllDigits whole)
    (again : '.' ∈ rest) (run : ∀ c ∈ rest, Token.isLiteralChar c = true) :
    IsReading (whole ++ '.' :: rest) (readFrom ⟨0, 0⟩ false false (whole ++ '.' :: rest)) := by
  have failed : ∃ cause, readFrom ⟨0, 0⟩ false false (whole ++ '.' :: rest) = .error cause := by
    rw [readFrom_pointed_run all]
    split
    · exact readFrom_of_point run again _ _
    · exact ⟨_, rfl⟩
  obtain ⟨cause, failed⟩ := failed
  rw [failed]
  refine .refused fun ⟨literal, _⟩ => ?_
  have points := literal.one_point.2
  have several := List.count_pos_iff.mpr again
  rw [List.count_append, List.count_cons_self] at points
  omega

theorem readFrom_isReading {text : List Char} (isLexeme : Token.IsLexeme text) :
    IsReading text (readFrom ⟨0, 0⟩ false false text) := by
  cases LexemeShape.of_run isLexeme.2 with
  | digits all => exact readFrom_digits_isReading isLexeme.1 all
  | pointed all allDecimals => exact readFrom_pointed_isReading all allDecimals
  | points all again run => exact readFrom_points_isReading all again run

end Magnitude

namespace Decimal

theorem read_lexeme {text : List Char} (isLexeme : Token.IsLexeme text) :
    read text = (Magnitude.signed · false) <$> Magnitude.readFrom ⟨0, 0⟩ false false text := by
  cases text with
  | nil => exact absurd rfl isLexeme.1
  | cons c rest =>
    have first := isLexeme.2 c List.mem_cons_self
    refine read_of_unsigned ?_ ?_ <;> (rintro rfl; cases first)

/-- A run of digits and points is read as its number rounded to a positive decimal, and as no other
decimal. -/
theorem read_lexeme_ok_iff {text : List Char} (isLexeme : Token.IsLexeme text) (value : Decimal) :
    read text = .ok value ↔ IsDecimalLiteral text ∧ value.negative = false ∧
      (literalMagnitude text).RoundsTo value.magnitude := by
  rw [read_lexeme isLexeme, Except.map_eq_ok_iff]
  have reading := Magnitude.readFrom_isReading isLexeme
  generalize Magnitude.readFrom ⟨0, 0⟩ false false text = answer at reading
  obtain ⟨negative, mantissa, scale⟩ := value
  cases reading with
  | @read n literal rounds =>
    constructor
    · rintro ⟨_, came, same⟩
      cases came
      cases same
      exact ⟨literal, rfl, rounds⟩
    · rintro ⟨_, rfl, other⟩
      exact ⟨n, rfl, by rw [rounds.unique other]; rfl⟩
  | refused unfit =>
    constructor
    · rintro ⟨_, failed, _⟩
      cases failed
    · rintro ⟨literal, _, other⟩
      exact absurd ⟨literal, _, other.keeps⟩ unfit

/-- A run of digits and points is read if it is written as a decimal and its number fits. -/
theorem read_lexeme_succeeds_iff {text : List Char} (isLexeme : Token.IsLexeme text) :
    (∃ value, read text = .ok value) ↔
      IsDecimalLiteral text ∧ ∃ kept, (literalMagnitude text).Keeps kept := by
  rw [read_lexeme isLexeme]
  have reading := Magnitude.readFrom_isReading isLexeme
  generalize Magnitude.readFrom ⟨0, 0⟩ false false text = answer at reading
  cases reading with
  | @read n literal rounds =>
    exact ⟨fun _ => ⟨literal, _, rounds.keeps⟩, fun _ => ⟨_, rfl⟩⟩
  | refused unfit => exact ⟨nofun, fun fits => absurd fits unfit⟩

end Decimal

end ExactCalc
