import ExactCalc.Proofs.Decimal.RoundTrip
import ExactCalc.Proofs.Decimal.SignedZero
import ExactCalc.Proofs.Evaluation.Bounds
import ExactCalc.Proofs.Evaluation.Literal
import ExactCalc.Proofs.Evaluation.Replacement

/-! A group can be replaced by its value.

What a value is written with is read back as it, unless it is a negative zero: the minus in front of
it becomes a head minus, which would clear its sign.
-/

set_option autoImplicit false

namespace ExactCalc

def parenthesized (before inner after : List Char) : List Char :=
  before ++ '(' :: (inner ++ ')' :: after)

theorem Token.symbols_parenthesized (before inner after : List Char) :
    symbols (parenthesized before inner after) =
      symbols before ++ ((.opening :: symbols inner ++ [.closing]) ++ symbols after) := by
  have opening : Symbol.ofChar? '(' = some .opening := rfl
  have closing : Symbol.ofChar? ')' = some .closing := rfl
  rw [parenthesized, symbols_append_cons opening, symbols_append_cons closing]
  simp

/-! ## A value as a chain -/

namespace Decimal

def literalChain (d : Decimal) : Expression := ⟨d.negative, [.literal d.magnitude.print 0], []⟩

theorem wellFormed_literalChain (d : Decimal) : d.literalChain.WellFormed := by
  simp [literalChain, Chain.wellFormed_iff]

theorem depth_literalChain (d : Decimal) : d.literalChain.depth = 0 := rfl

theorem symbols_print (d : Decimal) : Token.symbols d.print = d.literalChain.symbols := by
  obtain ⟨negative, mantissa, scale⟩ := d
  have unsigned := Token.symbols_lexeme (Magnitude.isLexeme_print ⟨mantissa, scale⟩)
  cases negative with
  | false => exact unsigned
  | true =>
    have signed := Token.symbols_operator .sub (magnitude ⟨true, mantissa, scale⟩).print
    exact signed.trans (congrArg (Symbol.operator .sub :: ·) unsigned)

theorem inAlphabet_of_mem_print (d : Decimal) : ∀ c ∈ d.print, Token.inAlphabet c = true := by
  have unsigned := d.magnitude.isLexeme_print.inAlphabet
  rw [print]
  split
  · exact List.forall_mem_cons.mpr ⟨rfl, unsigned⟩
  · exact unsigned

theorem outcome_literalChain {d : Decimal} (within : d.Representable)
    (signed : ¬d.IsNegativeZero) : d.literalChain.outcome = .ok d := by
  have fits : d.magnitude.Fits := ⟨within.mantissa_lt, within.scale_le⟩
  have read := (Form.value_literal_ok_iff _ _).mpr (read_print fits)
  rw [literalChain, Chain.outcome_literal, read]
  change Except.ok _ = _
  obtain ⟨negative, mantissa, scale⟩ := d
  cases negative with
  | false => rfl
  | true =>
    have nonzero : mantissa ≠ 0 := by
      rintro rfl
      exact signed ⟨rfl, rfl⟩
    simp [magnitude, negate, isZero, nonzero]

end Decimal

/-! ## Groups and their values -/

/-- In a text that is accepted, a part in parentheses that is an expression by itself, and so is
closed where it was opened, can be replaced by its value. The value of the whole text is the same,
or the error is, and this error is an arithmetic one. -/
theorem evaluate_group_by_value {limits : Limits} {before inner after : List Char}
    {tokens : List Token} {chain : Expression} {value : Decimal}
    (accepted : readExpression limits (parenthesized before inner after) = .ok (tokens, chain))
    (came : evaluate limits inner = .ok value) (signed : ¬value.IsNegativeZero)
    (short : byteLength (parenthesized before value.print after) ≤ limits.maxLength) :
    evaluate limits (parenthesized before value.print after) =
        evaluate limits (parenthesized before inner after) ∧
      ∀ error, evaluate limits (parenthesized before inner after) = .error error →
        error.report.isArithmetic := by
  obtain ⟨innerTokens, innerChain, innerAccepted, innerOutcome⟩ := evaluate_ok_iff.mp came
  obtain ⟨innerWellFormed, innerSymbols⟩ := symbols_of_accepted innerAccepted
  have valueOutcome := Decimal.outcome_literalChain (evaluate_representable came) signed
  obtain ⟨_, scanned, parsed⟩ := (readExpression_ok_iff _ _ _ _).mp accepted
  obtain ⟨alphabet, rfl⟩ := (Token.scan_ok_iff _ _).mp scanned
  rw [Token.symbols_parenthesized, ← innerSymbols, ← Operand.symbols_group] at parsed
  -- the group of the value stands in for the group
  have wellFormed := (Operand.wellFormed_group innerChain).mpr innerWellFormed
  have valueWellFormed := (Operand.wellFormed_group _).mpr value.wellFormed_literalChain
  have shallow : (Operand.group value.literalChain).depth ≤ (Operand.group innerChain).depth := by
    rw [Operand.depth_group, Operand.depth_group, value.depth_literalChain]
    omega
  have same : (Operand.group innerChain).outcome = (Operand.group value.literalChain).outcome := by
    rw [Operand.outcome_group, Operand.outcome_group, innerOutcome, valueOutcome]
  obtain ⟨other, otherParsed, otherOutcome⟩ :=
    Chain.parse_placed_replaced wellFormed valueWellFormed shallow same parsed
      (byteLength (parenthesized before value.print after))
  rw [Operand.symbols_group, ← value.symbols_print, ← Token.symbols_parenthesized] at otherParsed
  have otherAlphabet : ∀ c ∈ parenthesized before value.print after, Token.inAlphabet c = true := by
    have print := value.inAlphabet_of_mem_print
    simp only [parenthesized, List.mem_append, List.mem_cons] at alphabet ⊢
    rintro c (early | rfl | inside | rfl | late)
    · exact alphabet c (Or.inl early)
    · rfl
    · exact print c inside
    · rfl
    · exact alphabet c (Or.inr (Or.inr (Or.inr (Or.inr late))))
  have otherAccepted := (readExpression_ok_iff _ _ _ _).mpr
    ⟨short, (Token.scan_ok_iff _ _).mpr ⟨otherAlphabet, rfl⟩, otherParsed⟩
  rw [evaluate_eq_outcome accepted, evaluate_eq_outcome otherAccepted]
  exact ⟨otherOutcome, fun error failed =>
    Grammar.isArithmetic_of_outcome (symbols_of_accepted accepted).1 failed⟩

def negatedThird : Decimal := ⟨true, 3333333333333333333333333333, 28⟩

theorem evaluate_group_by_value_third :
    (∃ tokens chain, readExpression {} "6*(1-4/3)".toList = .ok (tokens, chain)) ∧
      evaluate {} "1-4/3".toList = .ok negatedThird ∧ ¬negatedThird.IsNegativeZero ∧
      evaluate {} "6*(-0.3333333333333333333333333333)".toList =
        evaluate {} "6*(1-4/3)".toList := by
  have came : evaluate {} "1-4/3".toList = .ok negatedThird := by decide +kernel
  have signed : ¬negatedThird.IsNegativeZero := by decide
  have whole : "6*(1-4/3)".toList = parenthesized "6*".toList "1-4/3".toList [] := by decide
  have replaced : "6*(-0.3333333333333333333333333333)".toList =
      parenthesized "6*".toList negatedThird.print [] := by decide +kernel
  have accepted : ∃ tokens chain,
      readExpression {} (parenthesized "6*".toList "1-4/3".toList []) = .ok (tokens, chain) :=
    ⟨_, _, rfl⟩
  obtain ⟨tokens, chain, read⟩ := accepted
  have short : byteLength (parenthesized "6*".toList negatedThird.print []) ≤
      Limits.maxLength {} := by decide +kernel
  rw [whole, replaced]
  exact ⟨⟨tokens, chain, read⟩, came, signed, (evaluate_group_by_value read came signed short).1⟩

end ExactCalc
