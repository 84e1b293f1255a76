import ExactCalc.Calculator
import ExactCalc.Proofs.Chain.RoundTrip
import ExactCalc.Proofs.Token.Scanning

/-! What reading a text as an expression comes to: its length, then its characters, then its tokens
decide. What is refused there is never evaluated. -/

set_option autoImplicit false

namespace ExactCalc

theorem readExpression_ok_iff (limits : Limits) (text : List Char) (tokens : List Token)
    (chain : Expression) :
    readExpression limits text = .ok (tokens, chain) ↔
      byteLength text ≤ limits.maxLength ∧ Token.scan text = .ok tokens ∧
        Chain.parse limits.effectiveDepth (byteLength text) tokens = .ok chain := by
  unfold readExpression
  by_cases long : limits.maxLength < byteLength text
  · rw [if_pos long]
    exact ⟨nofun, fun ⟨short, _⟩ => absurd long (Nat.not_lt.mpr short)⟩
  · rw [if_neg long, Except.bind_eq_ok_iff]
    constructor
    · rintro ⟨found, scanned, later⟩
      obtain ⟨expression, parsed, same⟩ := Except.bind_eq_ok_iff.mp later
      cases same
      exact ⟨Nat.not_lt.mp long, scanned, parsed⟩
    · rintro ⟨_, scanned, parsed⟩
      exact ⟨tokens, scanned, Except.bind_eq_ok_iff.mpr ⟨chain, parsed, rfl⟩⟩

theorem symbols_of_accepted {limits : Limits} {text : List Char} {tokens : List Token}
    {chain : Expression} (accepted : readExpression limits text = .ok (tokens, chain)) :
    chain.WellFormed ∧ chain.symbols = Token.symbols text := by
  obtain ⟨_, scanned, parsed⟩ := (readExpression_ok_iff limits text tokens chain).mp accepted
  obtain ⟨wellFormed, spells, _⟩ := (Chain.parse_ok_iff _ _ _ _).mp parsed
  refine ⟨wellFormed, ?_⟩
  rw [← spells.symbols, ((Token.scan_ok_iff text tokens).mp scanned).2, Token.map_symbol_placeFrom]

theorem readExpression_of_scan {limits : Limits} {text : List Char} {tokens : List Token}
    (short : byteLength text ≤ limits.maxLength) (scanned : Token.scan text = .ok tokens) :
    readExpression limits text =
      (tokens, ·) <$> Chain.parse limits.effectiveDepth (byteLength text) tokens := by
  unfold readExpression
  rw [if_neg (Nat.not_lt.mpr short), scanned]
  rfl

/-- A chain is read back from what it is written with, but for the positions of its literals. -/
theorem readExpression_print {limits : Limits} {chain : Expression} (wellFormed : chain.WellFormed)
    (lexemes : ∀ lexeme, .number lexeme ∈ chain.symbols → Token.IsLexeme lexeme)
    (short : byteLength chain.print ≤ limits.maxLength)
    (shallow : chain.depth ≤ limits.effectiveDepth) :
    ∃ tokens read, readExpression limits chain.print = .ok (tokens, read) ∧
      read.unplaced = chain.unplaced := by
  have sentence := chain.isSentence_symbols wellFormed
  obtain ⟨read, parsed, unplaced, _⟩ :=
    chain.parse_print wellFormed limits.effectiveDepth (byteLength chain.print) shallow
  exact ⟨_, read, (readExpression_ok_iff _ _ _ _).mpr
    ⟨short, Token.scan_flatMap_text chain.symbols lexemes sentence.apart, parsed⟩, unplaced⟩

/-- Of a text that is refused nothing is logged. -/
theorem evaluateIn_of_refused {limits : Limits} {text : List Char} {error : EvalError}
    (refused : readExpression limits text = .error error) (journal : Journal) :
    evaluateIn limits text journal = (.error error, journal) := by
  rw [evaluateIn, refused]

theorem explainIn_of_refused {limits : Limits} {text : List Char} {error : EvalError}
    (refused : readExpression limits text = .error error) (journal : Journal) :
    explainIn limits text journal = (.error error, journal) := by
  rw [explainIn, refused]

theorem evaluate_of_refused {limits : Limits} {text : List Char} {error : EvalError}
    (refused : readExpression limits text = .error error) :
    evaluate limits text = .error error := by
  rw [evaluate, evaluateIn_of_refused refused]

theorem evaluate_of_tooLong {limits : Limits} {text : List Char}
    (long : limits.maxLength < byteLength text) :
    evaluate limits text = .error (.tooLong (byteLength text) limits.maxLength) :=
  evaluate_of_refused (by rw [readExpression, if_pos long])

theorem explain_of_refused {limits : Limits} {text : List Char} {error : EvalError}
    (refused : readExpression limits text = .error error) :
    explain limits text = .error error := by
  rw [explain, explainIn_of_refused refused]

theorem readExpression_of_explained {limits : Limits} {text : List Char} {whole : Explanation}
    (explained : explain limits text = .ok whole) :
    readExpression limits text = .ok (whole.tokens, whole.expression) := by
  cases accepted : readExpression limits text with
  | error error =>
    rw [explain_of_refused accepted] at explained
    cases explained
  | ok pair =>
    rw [explain, explainIn, accepted] at explained
    simp only at explained
    split at explained
    · cases explained
    · cases explained
      rfl

end ExactCalc
