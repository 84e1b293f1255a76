import ExactCalc.Proofs.Chain.Mirror
import ExactCalc.Proofs.Chain.Unbalanced
import ExactCalc.Proofs.Evaluation.Precedence

/-! A fault in the writing is reported before any other.

Once a text has been read as an expression, only its arithmetic can fail. And a text that is no
expression is refused for what it is made of, not for what its literals say: with any other literal
it is refused for the same reason, at the same place up to the change in length.
-/

set_option autoImplicit false

namespace ExactCalc

def IsExpression (limits : Limits) (text : List Char) : Prop :=
  (∀ c ∈ text, Token.inAlphabet c = true) ∧ IsSentence (Token.symbols text) ∧
    Symbol.NestsWithin limits.effectiveDepth (Token.symbols text)

theorem isExpression_of_accepted {limits : Limits} {text : List Char} {tokens : List Token}
    {chain : Expression} (accepted : readExpression limits text = .ok (tokens, chain)) :
    IsExpression limits text := by
  obtain ⟨_, scanned, parsed⟩ := (readExpression_ok_iff _ _ _ _).mp accepted
  obtain ⟨_, _, depth⟩ := (Chain.parse_ok_iff _ _ _ _).mp parsed
  obtain ⟨wellFormed, symbols⟩ := symbols_of_accepted accepted
  refine ⟨((Token.scan_ok_iff _ _).mp scanned).1, ?_, ?_⟩
  · rw [← symbols]
    exact chain.isSentence_symbols wellFormed
  · rw [← symbols]
    exact (chain.nestsWithin_iff wellFormed _).mpr depth

/-! ## Replacing a literal -/

/-- A literal of a text, which is a run of digits and points that goes on to neither side, and
another such run to stand in its place. -/
structure LiteralEdit where
  before : List Char
  lexeme : List Char
  after : List Char
  replacement : List Char
  isLexeme : Token.IsLexeme lexeme
  left : ∀ c ∈ before.getLast?, Token.isLiteralChar c = false
  right : ∀ c ∈ after.head?, Token.isLiteralChar c = false
  isReplacement : Token.IsLexeme replacement

namespace LiteralEdit

def textWith (edit : LiteralEdit) (digits : List Char) : List Char :=
  edit.before ++ (digits ++ edit.after)

def text (edit : LiteralEdit) : List Char := edit.textWith edit.lexeme

def edited (edit : LiteralEdit) : List Char := edit.textWith edit.replacement

/-- Where a position of the text is found in the edited one. Up to the literal nothing moves. -/
def move (edit : LiteralEdit) (position : Nat) : Nat :=
  if position ≤ byteLength edit.before then position
  else position + byteLength edit.replacement - byteLength edit.lexeme

variable (edit : LiteralEdit)

theorem move_of_le {position : Nat} (early : position ≤ byteLength edit.before) :
    edit.move position = position :=
  if_pos early

theorem move_behind (distance : Nat) :
    edit.move (byteLength edit.before + byteLength edit.lexeme + distance) =
      byteLength edit.before + byteLength edit.replacement + distance := by
  have some := edit.isLexeme.byteLength_pos
  rw [move, if_neg (by omega)]
  omega

theorem move_length : edit.move (byteLength edit.text) = byteLength edit.edited := by
  simp only [text, edited, textWith, byteLength_append, ← Nat.add_assoc, move_behind]

theorem scan_textWith (early : ∀ c ∈ edit.before, Token.inAlphabet c = true)
    (late : ∀ c ∈ edit.after, Token.inAlphabet c = true) {digits : List Char}
    (isDigits : Token.IsLexeme digits) :
    Token.scan (edit.textWith digits) = .ok (Token.placeFrom 0
      (Token.symbols edit.before ++ .number digits :: Token.symbols edit.after)) := by
  refine (Token.scan_ok_iff _ _).mpr ⟨?_, ?_⟩
  · simp only [textWith, List.forall_mem_append]
    exact ⟨early, isDigits.inAlphabet, late⟩
  · rw [textWith, Token.symbols_append_of_getLast early edit.left,
      Token.symbols_append_of_head late edit.right, Token.symbols_lexeme isDigits,
      List.singleton_append]

theorem scan_textWith_of_foreign (early : ∀ c ∈ edit.before, Token.inAlphabet c = true)
    {known rest : List Char} {foreign : Char} (split : edit.after = known ++ foreign :: rest)
    (first : ∀ c ∈ known, Token.inAlphabet c = true)
    (unknown : Token.inAlphabet foreign = false) {digits : List Char}
    (isDigits : Token.IsLexeme digits) :
    Token.scan (edit.textWith digits) = .error (.unexpectedCharacter foreign
      (byteLength edit.before + byteLength digits + byteLength known)) := by
  have all : ∀ c ∈ edit.before ++ digits ++ known, Token.inAlphabet c = true := by
    simp only [List.forall_mem_append]
    exact ⟨⟨early, isDigits.inAlphabet⟩, first⟩
  have refused := Token.scan_of_foreign all unknown rest
  rw [byteLength_append, byteLength_append, List.append_assoc, List.append_assoc] at refused
  rw [textWith, split, refused]

/-- The edited text is cut into tokens that mirror those of the text, or refused at the same
character. -/
theorem scan_mirrors :
    Except.Corresponds (Refuses edit.move) (List.Forall₂ (Token.Mirrors edit.move))
      (Token.scan edit.text) (Token.scan edit.edited) := by
  by_cases early : ∀ c ∈ edit.before, Token.inAlphabet c = true
  · by_cases late : ∀ c ∈ edit.after, Token.inAlphabet c = true
    · have written := Token.flatMap_text_symbols edit.before
      rw [text, edited, edit.scan_textWith early late edit.isLexeme,
        edit.scan_textWith early late edit.isReplacement, Token.placeFrom_append,
        Token.placeFrom_append, written, Nat.zero_add]
      -- what is before the literal stays, the literal itself too, what is behind moves
      refine .ok (List.rel_append (Token.placeFrom_mirrors _ fun distance within => ?_)
        (.cons ⟨.number _ _, ?_⟩ (Token.placeFrom_mirrors _ fun distance _ => ?_)))
      · rw [written] at within
        exact edit.move_of_le (by omega)
      · exact (edit.move_of_le (Nat.le_refl _)).symm
      · exact edit.move_behind distance
    · obtain ⟨known, foreign, rest, split, first, unknown⟩ := Token.exists_foreign late
      rw [text, edited, edit.scan_textWith_of_foreign early split first unknown edit.isLexeme,
        edit.scan_textWith_of_foreign early split first unknown edit.isReplacement]
      exact .error (congrArg _ (edit.move_behind _).symm)
  · obtain ⟨known, foreign, rest, split, first, unknown⟩ := Token.exists_foreign early
    have inside : byteLength known ≤ byteLength edit.before := by
      rw [split, byteLength_append]
      omega
    rw [text, edited, textWith, textWith, split, List.append_assoc, List.append_assoc,
      List.cons_append, List.cons_append, Token.scan_of_foreign first unknown,
      Token.scan_of_foreign first unknown]
    exact .error (congrArg _ (edit.move_of_le inside).symm)

theorem readExpression_mirrors {limits : Limits} (short : byteLength edit.text ≤ limits.maxLength)
    (editedShort : byteLength edit.edited ≤ limits.maxLength) :
    Except.Corresponds (Refuses edit.move) (fun _ _ => True)
      (readExpression limits edit.text) (readExpression limits edit.edited) := by
  unfold readExpression
  rw [if_neg (Nat.not_lt.mpr short), if_neg (Nat.not_lt.mpr editedShort), ← edit.move_length]
  refine edit.scan_mirrors.bind fun tokens others mirrors => ?_
  exact (Chain.parse_mirrors _ _ mirrors).bind fun _ _ _ => .ok trivial

end LiteralEdit

/-! ## Refusals of texts -/

def Report.moved (move : Nat → Nat) : Report → Report
  | .malformed reason position => .malformed reason (position.map move)
  | report => report

theorem EvalError.report_moved (error : EvalError) (move : Nat → Nat) :
    (error.moved move).report = error.report.moved move := by
  cases error <;> rfl

theorem report_of_refused {limits : Limits} {text : List Char} {error : EvalError}
    (short : byteLength text ≤ limits.maxLength)
    (refused : readExpression limits text = .error error) :
    error.report.isSyntax ∨ error.report = .tooDeep limits.effectiveDepth := by
  cases scanned : Token.scan text with
  | error cause =>
    rw [readExpression, if_neg (Nat.not_lt.mpr short), scanned] at refused
    cases refused
    obtain ⟨before, foreign, after, _, _, _, rfl⟩ := (Token.scan_eq_error_iff _ _).mp scanned
    exact .inl rfl
  | ok tokens =>
    rw [readExpression_of_scan short scanned] at refused
    cases parsed : Chain.parse limits.effectiveDepth (byteLength text) tokens with
    | ok chain =>
      rw [parsed] at refused
      cases refused
    | error cause =>
      rw [parsed] at refused
      cases refused
      cases checked : Nesting.check limits.effectiveDepth tokens with
      | ok _ =>
        obtain ⟨position, rfl⟩ := Chain.parse_eq_error_of_check checked parsed
        exact .inl rfl
      | error cause =>
        rw [Chain.parse_of_check_error checked] at parsed
        cases parsed
        rcases Nesting.check_eq_error checked with ⟨rfl, _⟩ | ⟨position, rfl⟩
        · exact .inr rfl
        · exact .inl rfl

/-- What has been read as an expression can only fail in its arithmetic. A text that is no
expression is refused for its writing or its depth; and whatever one of its literals is replaced by,
the refusal stays the same, and its position moves with what is behind the literal. -/
theorem evaluate_syntax_first :
    (∀ maxDepth endPosition tokens chain,
      Chain.parse maxDepth endPosition tokens = .ok chain → ∀ progress error,
        ((Run.evaluate chain).run.run progress).1 = .error error → error.report.isArithmetic) ∧
    (∀ limits text tokens chain, readExpression limits text = .ok (tokens, chain) → ∀ error,
      evaluate limits text = .error error ∨ explain limits text = .error error →
        error.report.isArithmetic) ∧
    ∀ limits text, byteLength text ≤ limits.maxLength → ¬IsExpression limits text → ∃ error,
      evaluate limits text = .error error ∧ explain limits text = .error error ∧
      (error.report.isSyntax ∨ error.report = .tooDeep limits.effectiveDepth) ∧
      ∀ edit : LiteralEdit, edit.text = text → byteLength edit.edited ≤ limits.maxLength →
        ∃ later, evaluate limits edit.edited = .error later ∧
          explain limits edit.edited = .error later ∧
          later.report = error.report.moved edit.move := by
  refine ⟨?_, ?_, ?_⟩
  · intro maxDepth endPosition tokens chain parsed progress error failed
    rw [(Run.evaluate_yields chain).answer_eq progress] at failed
    exact Grammar.isArithmetic_of_outcome ((Chain.parse_ok_iff _ _ _ _).mp parsed).1 failed
  · intro limits text tokens chain accepted error failed
    have outcome : chain.outcome = .error error := by
      rcases failed with failed | failed
      · rw [← evaluate_eq_outcome accepted, failed]
      · rw [← map_value_explain accepted, failed]
        rfl
    exact Grammar.isArithmetic_of_outcome (symbols_of_accepted accepted).1 outcome
  · intro limits text short invalid
    cases read : readExpression limits text with
    | ok result => exact absurd (isExpression_of_accepted read) invalid
    | error error =>
      refine ⟨error, evaluate_of_refused read, explain_of_refused read,
        report_of_refused short read, ?_⟩
      rintro edit rfl editedShort
      have mirrors := edit.readExpression_mirrors short editedShort
      rw [read] at mirrors
      cases editedRead : readExpression limits edit.edited with
      | ok result =>
        rw [editedRead] at mirrors
        cases mirrors
      | error later =>
        rw [editedRead] at mirrors
        cases mirrors with
        | error moved =>
          exact ⟨later, evaluate_of_refused editedRead, explain_of_refused editedRead,
            by rw [moved, error.report_moved]⟩

def firstLiteralEdit : LiteralEdit where
  before := []
  lexeme := "1.2.3".toList
  after := "+1/0+(2".toList
  replacement := "7".toList
  isLexeme := by decide
  left := nofun
  right := by simp [Token.isLiteralChar]
  isReplacement := by decide

/-- The parenthesis left open is reported before the literal that is none and before the division by
zero, wherever it stands. -/
theorem evaluate_syntax_first_unbalanced :
    ¬IsExpression {} "1.2.3+1/0+(2".toList ∧
      evaluate {} "1.2.3+1/0+(2".toList = .error (.unbalanced 10) ∧
      (∃ later, evaluate {} "7+1/0+(2".toList = .error later ∧
        later.report = .malformed "parentheses mismatch" (some 6)) ∧
      ∃ error, evaluate {} "7+1/0+(2)".toList = .error error ∧ error.report.isArithmetic := by
  obtain ⟨_, arithmetic, refused⟩ := evaluate_syntax_first
  have invalid : ¬IsExpression {} "1.2.3+1/0+(2".toList := by
    rintro ⟨_, sentence, _⟩
    have level : Symbol.rise (Token.symbols "1.2.3+1/0+(2".toList) = 0 := sentence.balanced.1
    exact absurd level (by decide)
  have computed : evaluate {} "1.2.3+1/0+(2".toList = .error (.unbalanced 10) := by decide +kernel
  have short : byteLength "1.2.3+1/0+(2".toList ≤ Limits.maxLength {} := by decide
  obtain ⟨error, same, _, _, replaced⟩ := refused {} _ short invalid
  rw [computed] at same
  cases same
  obtain ⟨later, other, _, report⟩ := replaced firstLiteralEdit rfl (by decide)
  have accepted : ∃ tokens chain, readExpression {} "7+1/0+(2)".toList = .ok (tokens, chain) :=
    ⟨_, _, rfl⟩
  obtain ⟨tokens, chain, read⟩ := accepted
  have failed : evaluate {} "7+1/0+(2)".toList =
      .error (.fault (.divisionByZero ⟨false, 1, 0⟩ ⟨false, 0, 0⟩)) := by
    decide +kernel
  exact ⟨invalid, computed, ⟨later, other, report⟩, _, failed,
    arithmetic {} _ tokens chain read _ (.inl failed)⟩

end ExactCalc
