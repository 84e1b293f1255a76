import ExactCalc.Proofs.Decimal.RoundTrip
import ExactCalc.Proofs.Decimal.SignedZero
import ExactCalc.Proofs.Evaluation.Bounds

/-! The sign of a zero that an evaluation comes to.

The head minus clears the sign of a zero, so that `-0` is a positive zero. A product that underflows
keeps its sign all the same, and so a zero can still be a negative one. This is the only way: where
no product of an expression underflows, its zeros are positive.
-/

set_option autoImplicit false

namespace ExactCalc

namespace Grammar

mutual

def Factor.Multiplies (related : Decimal → Decimal → Prop) : Factor → Prop
  | .literal _ => False
  | .group inner => inner.Multiplies related

def Term.Multiplies (related : Decimal → Decimal → Prop) (negated : Bool) : Term → Prop
  | .factor only => only.Multiplies related
  | .more before op _ last =>
    before.Multiplies related negated ∨ last.Multiplies related ∨
      op = .mul ∧ ∃ a b, before.value decimals negated = some a ∧
        last.value decimals = some b ∧ related a b

def Expr.Multiplies (related : Decimal → Decimal → Prop) : Expr → Prop
  | .first negated term => term.Multiplies related negated
  | .more before _ _ last => before.Multiplies related ∨ last.Multiplies related false

end

mutual

theorem Factor.multiplies_of_negativeZero : ∀ (factor : Factor) {value : Decimal},
    factor.value decimals = some value → value.IsNegativeZero →
      factor.Multiplies Decimal.Underflow
  | .literal _, _, known, negativeZero =>
    absurd negativeZero (Decimal.not_isNegativeZero_read (decimals_literal_eq_some_iff.mp known))
  | .group inner, _, known, negativeZero => inner.multiplies_of_negativeZero known negativeZero

theorem Term.multiplies_of_negativeZero (negated : Bool) : ∀ (term : Term) {value : Decimal},
    term.value decimals negated = some value → value.IsNegativeZero →
      term.Multiplies Decimal.Underflow negated
  | .factor only, _, known, negativeZero => by
    obtain ⟨inner, read, rfl⟩ := Option.map_eq_some_iff.mp known
    cases negated with
    | false => exact only.multiplies_of_negativeZero read negativeZero
    | true => exact absurd negativeZero (Decimal.not_isNegativeZero_negate inner)
  | .more before op tight last, _, known, negativeZero => by
    obtain ⟨a, b, left, right, applied⟩ := Semantics.combine_eq_some_iff.mp known
    -- the zero was there on one of the two sides, or this product underflows
    rcases Operator.isNegativeZero_of_apply
        (before.value_holds decimals_keep_representable negated left)
        (last.value_holds decimals_keep_representable right)
        (decimals_apply_eq_some_iff.mp applied) negativeZero with inside | inside | ⟨mul, underflow⟩
    · exact Or.inl (before.multiplies_of_negativeZero negated left inside)
    · exact Or.inr (Or.inl (last.multiplies_of_negativeZero right inside))
    · exact Or.inr (Or.inr ⟨mul, a, b, left, right, underflow⟩)

theorem Expr.multiplies_of_negativeZero : ∀ (expr : Expr) {value : Decimal},
    expr.value decimals = some value → value.IsNegativeZero → expr.Multiplies Decimal.Underflow
  | .first negated term, _, known, negativeZero =>
    term.multiplies_of_negativeZero negated known negativeZero
  | .more before op loose last, _, known, negativeZero => by
    obtain ⟨a, b, left, right, applied⟩ := Semantics.combine_eq_some_iff.mp known
    rcases Operator.isNegativeZero_of_apply (before.value_holds decimals_keep_representable left)
        (last.value_holds decimals_keep_representable false right)
        (decimals_apply_eq_some_iff.mp applied) negativeZero with inside | inside | ⟨rfl, _⟩
    · exact Or.inl (before.multiplies_of_negativeZero left inside)
    · exact Or.inr (last.multiplies_of_negativeZero false right inside)
    · cases loose

end

end Grammar

/-- A zero is positive and written without a minus, unless a product in the text underflows. -/
theorem evaluate_zero_sign {limits : Limits} {text : List Char} {value : Decimal}
    (came : evaluate limits text = .ok value) (zero : value.isZero) :
    (value.negative = false ∧ value.print.head? ≠ some '-') ∨
      ∃ derivation : Grammar.Expr, derivation.symbols = Token.symbols text ∧
        derivation.Multiplies Decimal.Underflow := by
  cases sign : value.negative with
  | false => exact Or.inl ⟨rfl, Decimal.head_print_of_nonneg sign⟩
  | true =>
    obtain ⟨tokens, chain, accepted, outcome⟩ := evaluate_ok_iff.mp came
    obtain ⟨wellFormed, symbols⟩ := symbols_of_accepted accepted
    have known := (Grammar.outcome_ok_iff wellFormed value).mp outcome
    refine Or.inr ⟨Grammar.ofChain chain, ?_, ?_⟩
    · rw [Grammar.symbols_ofChain chain wellFormed, symbols]
    · exact (Grammar.ofChain chain).multiplies_of_negativeZero known ⟨zero, sign⟩

def underflowText : List Char :=
  "(-0.0000000000005000000000)*0.0000000000000000005000000000".toList

theorem evaluate_underflow :
    evaluate {} underflowText = .ok ⟨true, 0, 28⟩ ∧
      ∃ derivation : Grammar.Expr, derivation.symbols = Token.symbols underflowText ∧
        derivation.Multiplies Decimal.Underflow := by
  have came : evaluate {} underflowText = .ok ⟨true, 0, 28⟩ := by decide +kernel
  refine ⟨came, ?_⟩
  rcases evaluate_zero_sign came rfl with ⟨positive, _⟩ | underflows
  · cases positive
  · exact underflows

/-- There is a negative zero, written with a minus. -/
theorem not_forall_zero_positive :
    ¬∀ (limits : Limits) (text : List Char) (value : Decimal),
      evaluate limits text = .ok value → value.isZero →
        value.negative = false ∧ value.print.head? ≠ some '-' := by
  intro claim
  have came : evaluate {} underflowText = .ok ⟨true, 0, 28⟩ := by decide +kernel
  cases (claim {} underflowText ⟨true, 0, 28⟩ came rfl).1

end ExactCalc
