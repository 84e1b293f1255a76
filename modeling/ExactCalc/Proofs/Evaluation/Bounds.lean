import ExactCalc.Proofs.Decimal.Bounds
import ExactCalc.Proofs.Evaluation.Precedence

/-! All values of an evaluation are within the bounds: literals are read within them, and negation
and the operators keep them. -/

set_option autoImplicit false

namespace ExactCalc

namespace Grammar

theorem decimals_apply_eq_some_iff {op : Operator} {a b result : Decimal} :
    decimals.apply op a b = some result ↔ op.apply a b = .ok result := by
  change (op.apply a b).toOption = some result ↔ _
  cases op.apply a b <;> simp [Except.toOption]

theorem decimals_literal_eq_some_iff {lexeme : List Char} {value : Decimal} :
    decimals.literal lexeme = some value ↔ Decimal.read lexeme = .ok value := by
  change (Decimal.read lexeme).toOption = some value ↔ _
  cases Decimal.read lexeme <;> simp [Except.toOption]

theorem decimals_keep_representable : decimals.Keeps Decimal.Representable where
  literal _ _ known := Decimal.read_representable (decimals_literal_eq_some_iff.mp known)
  negate _ within := within.negate
  apply _ _ _ _ left right applied :=
    Operator.apply_representable left right (decimals_apply_eq_some_iff.mp applied)

theorem outcome_representable {chain : Expression} (wellFormed : chain.WellFormed)
    {value : Decimal} (came : chain.outcome = .ok value) : value.Representable :=
  (ofChain chain).value_holds decimals_keep_representable
    ((outcome_ok_iff wellFormed value).mp came)

end Grammar

theorem evaluate_ok_iff {limits : Limits} {text : List Char} {value : Decimal} :
    evaluate limits text = .ok value ↔ ∃ tokens chain,
      readExpression limits text = .ok (tokens, chain) ∧ chain.outcome = .ok value := by
  cases read : readExpression limits text with
  | error error =>
    simp [evaluate_of_refused read]
  | ok pair =>
    obtain ⟨tokens, chain⟩ := pair
    rw [evaluate_eq_outcome read]
    simp

/-- The value of a text is within the bounds. -/
theorem evaluate_representable {limits : Limits} {text : List Char} {value : Decimal}
    (came : evaluate limits text = .ok value) : value.Representable := by
  obtain ⟨tokens, chain, accepted, outcome⟩ := evaluate_ok_iff.mp came
  exact Grammar.outcome_representable (symbols_of_accepted accepted).1 outcome

end ExactCalc
