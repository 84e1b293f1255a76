import ExactCalc.Proofs.Chain.ViablePrefix
import ExactCalc.Proofs.Reading

/-! Where a text is refused whose parentheses are in order and that is no expression all the same:
at the first of its tokens with which no expression goes on, or at its end. -/

set_option autoImplicit false

namespace ExactCalc

/-- A text that is not too long, has no foreign character and has its parentheses in order, but is
no expression, is refused at one place: at the first token with which its beginning is that of no
expression any more, or at its end, where more is needed. -/
theorem evaluate_misplaced {limits : Limits} {text : List Char} {tokens : List Token}
    (short : byteLength text ≤ limits.maxLength) (scanned : Token.scan text = .ok tokens)
    (checked : Nesting.check limits.effectiveDepth tokens = .ok ())
    (invalid : ¬IsSentence (tokens.map (·.symbol))) :
    ∃ position,
      evaluate limits text = .error (.misplaced position) ∧
      explain limits text = .error (.misplaced position) ∧
      (EvalError.misplaced position).report = .malformed "invalid maths" (some position) ∧
      ((∃ before token after, tokens = before ++ token :: after ∧ token.position = position ∧
          position = byteLength (before.flatMap (·.symbol.text)) ∧
          BeginsSentence (before.map (·.symbol)) ∧
          ¬BeginsSentence ((before ++ [token]).map (·.symbol))) ∨
        position = byteLength text ∧
          ∃ rest, rest ≠ [] ∧ IsSentence (tokens.map (·.symbol) ++ rest)) := by
  have read := readExpression_of_scan short scanned
  rcases Chain.parse_of_not_isSentence checked invalid with
    ⟨before, token, after, rfl, begins, stops, parsed⟩ | ⟨begins, parsed⟩
  · rw [parsed] at read
    have placed := Token.position_of_scan scanned
    exact ⟨token.position, evaluate_of_refused read, explain_of_refused read, rfl,
      .inl ⟨before, token, after, rfl, rfl, placed, begins, stops⟩⟩
  · rw [parsed] at read
    obtain ⟨rest, sentence⟩ := begins
    have more : rest ≠ [] := by
      rintro rfl
      exact invalid (by rwa [List.append_nil] at sentence)
    exact ⟨byteLength text, evaluate_of_refused read, explain_of_refused read, rfl,
      .inr ⟨rfl, rest, more, sentence⟩⟩

def secondSignTokens : List Token :=
  [⟨.number ['1'], 0⟩, ⟨.operator .add, 1⟩, ⟨.opening, 2⟩, ⟨.number ['5'], 3⟩,
    ⟨.operator .mul, 4⟩, ⟨.operator .sub, 5⟩, ⟨.number ['.', '3'], 6⟩, ⟨.closing, 8⟩]

theorem evaluate_misplaced_secondSign :
    Token.scan "1+(5*-.3)".toList = .ok secondSignTokens ∧
      Nesting.check 1 secondSignTokens = .ok () ∧
      ¬IsSentence (secondSignTokens.map (·.symbol)) ∧
      evaluate ⟨1, 9⟩ "1+(5*-.3)".toList = .error (.misplaced 5) ∧
      ∃ before token after, secondSignTokens = before ++ token :: after ∧ token.position = 5 ∧
        BeginsSentence (before.map (·.symbol)) ∧
        ¬BeginsSentence ((before ++ [token]).map (·.symbol)) := by
  have scanned : Token.scan "1+(5*-.3)".toList = .ok secondSignTokens := by decide
  have checked : Nesting.check (Limits.effectiveDepth ⟨1, 9⟩) secondSignTokens = .ok () := rfl
  have invalid : ¬IsSentence (secondSignTokens.map (·.symbol)) := by
    intro sentence
    obtain ⟨current, run⟩ := Parser.run_of_isSentence sentence
    cases run
  have short : byteLength "1+(5*-.3)".toList ≤ 9 := by decide
  have computed : evaluate ⟨1, 9⟩ "1+(5*-.3)".toList = .error (.misplaced 5) := by decide +kernel
  obtain ⟨position, refused, _, _, place⟩ := evaluate_misplaced short scanned checked invalid
  rw [computed] at refused
  obtain rfl := EvalError.misplaced.inj (Except.error.inj refused)
  refine ⟨scanned, checked, invalid, computed, ?_⟩
  rcases place with ⟨before, token, after, same, placed, _, begins, stops⟩ | ⟨atEnd, _⟩
  · exact ⟨before, token, after, same, placed, begins, stops⟩
  · exact absurd atEnd (by decide)

end ExactCalc
