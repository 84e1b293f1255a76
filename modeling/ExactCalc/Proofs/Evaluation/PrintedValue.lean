import ExactCalc.Proofs.Evaluation.GroupValue

/-! A value is read back from its text.

What a value is written with is an expression: a literal, behind a head minus if the value is
negative. The literal has no more digits than fit, so reading it rounds nothing, and the head minus
gives its sign back to any value but a zero.
-/

set_option autoImplicit false

namespace ExactCalc

namespace Decimal

theorem print_literalChain (d : Decimal) : d.literalChain.print = d.print := by
  rw [Chain.print, ← symbols_print, Token.flatMap_text_symbols]

theorem isLexeme_of_mem_literalChain {d : Decimal} {lexeme : List Char}
    (member : .number lexeme ∈ d.literalChain.symbols) : Token.IsLexeme lexeme :=
  Token.isLexeme_of_mem_symbols d.inAlphabet_of_mem_print (d.symbols_print ▸ member)

theorem byteLength_print_le {d : Decimal} (within : d.Representable) : byteLength d.print ≤ 31 := by
  rw [Token.byteLength_eq_length d.inAlphabet_of_mem_print]
  exact length_print_le within

theorem evaluate_print_of_short {limits : Limits} {d : Decimal} (within : d.Representable)
    (signed : ¬d.IsNegativeZero) (short : byteLength d.print ≤ limits.maxLength) :
    evaluate limits d.print = .ok d := by
  rw [← d.print_literalChain] at short ⊢
  obtain ⟨tokens, read, accepted, unplaced⟩ := readExpression_print d.wellFormed_literalChain
    (fun _ => isLexeme_of_mem_literalChain) short (Nat.zero_le _)
  calc evaluate limits d.literalChain.print = read.outcome := evaluate_eq_outcome accepted
    _ = read.unplaced.outcome := read.outcome_unplaced.symm
    _ = d.literalChain.outcome := by rw [unplaced, Chain.outcome_unplaced]
    _ = .ok d := outcome_literalChain within signed

end Decimal

/-- Under limits that let 31 bytes in, such as those by default, a value other than a negative zero
is read back from its text, with its sign, its mantissa and its scale. So the value of any text is,
whatever its limits were. -/
theorem evaluate_print {limits : Limits} (room : 31 ≤ limits.maxLength) :
    (∀ d : Decimal, d.Representable → ¬d.IsNegativeZero → evaluate limits d.print = .ok d) ∧
    ∀ (other : Limits) (text : List Char) (value : Decimal), evaluate other text = .ok value →
      ¬value.IsNegativeZero → evaluate limits value.print = .ok value := by
  have back : ∀ d : Decimal, d.Representable → ¬d.IsNegativeZero →
      evaluate limits d.print = .ok d := fun d within signed =>
    Decimal.evaluate_print_of_short within signed ((Decimal.byteLength_print_le within).trans room)
  exact ⟨back, fun other text value came => back value (evaluate_representable came)⟩

def lowestDecimal : Decimal := ⟨true, 79228162514264337593543950335, 28⟩

theorem evaluate_print_lowest :
    31 ≤ Limits.maxLength {} ∧ lowestDecimal.Representable ∧ ¬lowestDecimal.IsNegativeZero ∧
      evaluate {} "-7.9228162514264337593543950335".toList = .ok lowestDecimal ∧
      evaluate {} "1-4/3".toList = .ok negatedThird ∧ ¬negatedThird.IsNegativeZero ∧
      evaluate {} "-0.3333333333333333333333333333".toList = .ok negatedThird := by
  have room : 31 ≤ Limits.maxLength {} := by decide
  have within : lowestDecimal.Representable := by decide
  have signed : ¬lowestDecimal.IsNegativeZero := by decide
  have written : "-7.9228162514264337593543950335".toList = lowestDecimal.print := by
    decide +kernel
  have third : evaluate {} "1-4/3".toList = .ok negatedThird := by decide +kernel
  have thirdSigned : ¬negatedThird.IsNegativeZero := by decide
  have thirdWritten : "-0.3333333333333333333333333333".toList = negatedThird.print := by
    decide +kernel
  obtain ⟨back, again⟩ := evaluate_print room
  rw [written, thirdWritten]
  exact ⟨room, within, signed, back _ within signed, third, thirdSigned,
    again {} _ _ third thirdSigned⟩

end ExactCalc
