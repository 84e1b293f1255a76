import ExactCalc.Proofs.Decimal.LiteralReading
import ExactCalc.Proofs.Evaluation.Precedence

/-! Texts that are one run of digits and points.

The scanner lets every run through as one literal, and a chain of one literal is accepted as it
stands. So whether the text has a value is asked of the reader of decimals alone.
-/

set_option autoImplicit false

namespace ExactCalc

theorem Token.scan_lexeme {text : List Char} (isLexeme : IsLexeme text) :
    scan text = .ok [⟨.number text, 0⟩] := by
  refine (scan_ok_iff text _).mpr ⟨fun c member => ?_, by rw [symbols_lexeme isLexeme]; rfl⟩
  simp [inAlphabet, isLexeme.2 c member]

theorem Chain.parse_literal (maxDepth endPosition : Nat) (lexeme : List Char) (position : Nat) :
    Chain.parse maxDepth endPosition [⟨.number lexeme, position⟩] =
      .ok ⟨false, [.literal lexeme position], []⟩ := by
  refine (Chain.parse_ok_iff _ _ _ _).mpr ⟨?_, ⟨rfl, rfl⟩, ?_⟩
  · simp [Chain.wellFormed_iff]
  · simp [Chain.depth_le_iff]

theorem Chain.outcome_literal (negated : Bool) (lexeme : List Char) (position : Nat) :
    Chain.outcome ⟨negated, [.literal lexeme position], []⟩ =
      (fun value => if negated then value.negate else value) <$> Form.literalValue lexeme := by
  unfold Chain.outcome Chain.settle Outcome.level
  change Form.literalValue lexeme >>= _ >>= _ = _
  cases Form.literalValue lexeme <;> rfl

theorem evaluate_lexeme {limits : Limits} {text : List Char} (isLexeme : Token.IsLexeme text)
    (short : byteLength text ≤ limits.maxLength) :
    evaluate limits text = Form.literalValue text := by
  have accepted := (readExpression_ok_iff limits text _ _).mpr
    ⟨short, Token.scan_lexeme isLexeme, Chain.parse_literal _ _ text 0⟩
  rw [evaluate_eq_outcome accepted, Chain.outcome_literal]
  exact id_map _

theorem Form.value_literal_ok_iff (lexeme : List Char) (value : Decimal) :
    Form.literalValue lexeme = .ok value ↔ Decimal.read lexeme = .ok value := by
  rw [Form.literalValue]
  cases Decimal.read lexeme <;> simp

theorem Form.value_literal_error {lexeme : List Char} {error : EvalError}
    (failed : Form.literalValue lexeme = .error error) :
    ∃ cause, error = .badLiteral lexeme cause := by
  rw [Form.literalValue] at failed
  cases read : Decimal.read lexeme with
  | ok value =>
    rw [read] at failed
    cases failed
  | error cause =>
    rw [read] at failed
    exact ⟨cause, (Except.error.inj failed).symm⟩

/-- A run of digits and points has a value if it has a digit, not two points, and a number that fits
once it is rounded to the decimals kept; the value is then the number so rounded, with as many
decimals as there are and fit. Every other run is refused as a literal. -/
theorem evaluate_literal {limits : Limits} {text : List Char} (isLexeme : Token.IsLexeme text)
    (short : byteLength text ≤ limits.maxLength) :
    ((∃ value, evaluate limits text = .ok value) ↔
      IsDecimalLiteral text ∧ ∃ kept, (literalMagnitude text).Keeps kept) ∧
    (IsDecimalLiteral text ↔ (∃ c ∈ text, c.isDigit) ∧ text.count '.' ≤ 1) ∧
    (∀ value, evaluate limits text = .ok value →
      value.negative = false ∧ (literalMagnitude text).RoundsTo value.magnitude) ∧
    ∀ error, evaluate limits text = .error error → ∃ cause : ReadError,
      error.report =
        .arithmetic s!"littéral invalide '{String.ofList text}': {cause.message}" := by
  rw [evaluate_lexeme isLexeme short]
  simp only [Form.value_literal_ok_iff]
  refine ⟨Decimal.read_lexeme_succeeds_iff isLexeme, isDecimalLiteral_iff isLexeme.2, ?_, ?_⟩
  · exact fun value read => ((Decimal.read_lexeme_ok_iff isLexeme value).mp read).2
  · intro error failed
    obtain ⟨cause, rfl⟩ := Form.value_literal_error failed
    exact ⟨cause, rfl⟩

def largestLiteral (tenths : Char) : List Char :=
  "79228162514264337593543950335".toList ++ ['.', tenths]

theorem evaluate_literal_largest :
    (Token.IsLexeme (largestLiteral '4') ∧ byteLength (largestLiteral '4') ≤ 31 ∧
      evaluate ⟨0, 31⟩ (largestLiteral '4') = .ok ⟨false, 79228162514264337593543950335, 0⟩ ∧
      (literalMagnitude (largestLiteral '4')).RoundsTo ⟨79228162514264337593543950335, 0⟩) ∧
    IsDecimalLiteral (largestLiteral '5') ∧
      ¬∃ kept, (literalMagnitude (largestLiteral '5')).Keeps kept := by
  have isLexeme (tenths : Char) (digit : tenths.isDigit) :
      Token.IsLexeme (largestLiteral tenths) := by
    have whole : AllDigits "79228162514264337593543950335".toList := by decide
    refine ⟨nofun, List.forall_mem_append.mpr ⟨whole.isLiteralChar, ?_⟩⟩
    simp [Token.isLiteralChar, digit]
  have short : byteLength (largestLiteral '4') ≤ (Limits.mk 0 31).maxLength := by decide
  have came : evaluate ⟨0, 31⟩ (largestLiteral '4') =
      .ok ⟨false, 79228162514264337593543950335, 0⟩ := by decide +kernel
  have refused : evaluate ⟨0, 31⟩ (largestLiteral '5') =
      .error (.badLiteral (largestLiteral '5') .tooManyDigitsAfterRounding) := by decide +kernel
  have shortToo : byteLength (largestLiteral '5') ≤ (Limits.mk 0 31).maxLength := by decide
  obtain ⟨_, _, rounds, _⟩ := evaluate_literal (isLexeme '4' rfl) short
  obtain ⟨accepts, syntactic, _⟩ := evaluate_literal (isLexeme '5' rfl) shortToo
  have literal : IsDecimalLiteral (largestLiteral '5') :=
    syntactic.mpr ⟨⟨'5', by decide, rfl⟩, by decide⟩
  refine ⟨⟨isLexeme '4' rfl, short, came, (rounds _ came).2⟩, literal, fun keeps => ?_⟩
  obtain ⟨value, answered⟩ := accepts.mpr ⟨literal, keeps⟩
  rw [refused] at answered
  cases answered

/-- A literal keeps as many of its decimals as fit, and the others are rounded away, a half upwards.
It is refused only if it does not fit with any number of them; within the bounds it is kept as it is
written. -/
theorem evaluate_decimalLiteral {limits : Limits} {text : List Char}
    (literal : IsDecimalLiteral text) (short : byteLength text ≤ limits.maxLength) :
    ((∃ value, evaluate limits text = .ok value) ↔ ∃ kept, (literalMagnitude text).Keeps kept) ∧
    (∀ value, evaluate limits text = .ok value ↔
      value.negative = false ∧ (literalMagnitude text).RoundsTo value.magnitude) ∧
    (∀ error, evaluate limits text = .error error → error.report.isArithmetic) ∧
    ((literalMagnitude text).Fits →
      evaluate limits text = .ok ((literalMagnitude text).withSign false)) := by
  have isLexeme := literal.isLexeme
  have read (value : Decimal) : evaluate limits text = .ok value ↔
      value.negative = false ∧ (literalMagnitude text).RoundsTo value.magnitude := by
    rw [evaluate_lexeme isLexeme short, Form.value_literal_ok_iff,
      Decimal.read_lexeme_ok_iff isLexeme, and_iff_right literal]
  refine ⟨?_, read, ?_, fun fits => (read _).mpr ⟨rfl, fits.roundsTo_self⟩⟩
  · simp only [evaluate_lexeme isLexeme short, Form.value_literal_ok_iff]
    rw [Decimal.read_lexeme_succeeds_iff isLexeme, and_iff_right literal]
  · intro error failed
    rw [evaluate_lexeme isLexeme short] at failed
    obtain ⟨cause, rfl⟩ := Form.value_literal_error failed
    rfl

theorem evaluate_decimalLiteral_carried :
    IsDecimalLiteral "007.92281625142643375935439503355".toList ∧
      byteLength "007.92281625142643375935439503355".toList ≤ 33 ∧
      evaluate ⟨0, 33⟩ "007.92281625142643375935439503355".toList =
        .ok ⟨false, 7922816251426433759354395034, 27⟩ ∧
      (literalMagnitude "007.92281625142643375935439503355".toList).RoundsTo
        ⟨7922816251426433759354395034, 27⟩ := by
  have literal : IsDecimalLiteral "007.92281625142643375935439503355".toList :=
    @IsDecimalLiteral.pointed "007".toList "92281625142643375935439503355".toList
      (by decide) (by decide) (by decide)
  have short : byteLength "007.92281625142643375935439503355".toList ≤ 33 := by decide
  have came : evaluate ⟨0, 33⟩ "007.92281625142643375935439503355".toList =
      .ok ⟨false, 7922816251426433759354395034, 27⟩ := by decide +kernel
  exact ⟨literal, short, came, (((evaluate_decimalLiteral literal short).2.1 _).mp came).2⟩

end ExactCalc
