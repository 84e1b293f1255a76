import ExactCalc.Proofs.Decimal.Turned
import ExactCalc.Proofs.Evaluation.GroupValue
import ExactCalc.Proofs.Grammar.Continuation

/-! A head minus negates the whole first term.

The evaluation puts it to the first factor alone. The products and quotients of the term then carry
the turned sign to its end, where it is as if the term had been negated as a group, or subtracted
from zero; and what follows the term does not see the sign that a zero may have got.
-/

set_option autoImplicit false

namespace ExactCalc

namespace Grammar

theorem apply_turned {turned : Bool} (op : Operator)
    (allowed : turned = true → op.isMultiplicative = true) (a b c : Decimal)
    (same : Decimal.Turned turned a b) :
    Option.Rel (Decimal.Turned turned) (decimals.apply op a c) (decimals.apply op b c) :=
  op.apply_turned same allowed c

theorem Term.value_negated_turned (term : Term) :
    Option.Rel (Decimal.Turned true) (term.value decimals true) (term.value decimals false) := by
  induction term with
  | factor only => exact Decimal.map_turned Decimal.negate_turned (only.value decimals)
  | more before op tight last ih =>
    exact Semantics.combine_rel (apply_turned op fun _ => tight) ih _

/-- Three ways to begin with the opposite of a term: a head minus, a head minus before the term in
parentheses, and a subtraction from zero. -/
def Term.negations (term : Term) : List Expr :=
  [.first true term, .first true (.factor (.group (.first false term))),
    .more (.first false (.factor (.literal ['0']))) .sub rfl term]

theorem Term.negations_turned {term : Term} {negation : Expr} (member : negation ∈ term.negations) :
    Option.Rel (Decimal.Turned true) (negation.value decimals) (term.value decimals false) := by
  simp only [negations, List.mem_cons, List.not_mem_nil, or_false] at member
  rcases member with rfl | rfl | rfl
  · exact term.value_negated_turned
  · change Option.Rel _ ((term.value decimals false).map Decimal.negate) _
    cases term.value decimals false with
    | none => exact .none
    | some value => exact .some value.negate_turned
  · have zero : (Expr.first false (.factor (.literal ['0']))).value decimals = some .zero := rfl
    change Option.Rel _ (decimals.combine .sub ((Expr.first false _).value decimals) _) _
    rw [zero]
    cases term.value decimals false with
    | none => exact .none
    | some value =>
      have applied : Operator.sub.apply Decimal.zero value = .ok value.opposite := rfl
      rw [combine_ok applied]
      exact .some value.opposite_turned

/-- Whichever way it begins, an expression has the same value, signs of zeros apart. -/
theorem value_negations_rel {term : Term} {later : List (Operator × Factor)}
    (terms : ∀ pair ∈ later.head?, pair.1.isMultiplicative = false) {negation other : Expr}
    (member : negation ∈ term.negations) (otherMember : other ∈ term.negations) :
    Option.Rel (Decimal.Turned false) ((later.foldl Expr.extend negation).value decimals)
      ((later.foldl Expr.extend other).value decimals) := by
  have additive (op : Operator) (_ : op.isMultiplicative = false) :=
    apply_turned op (nofun : false = true → _)
  exact Expr.value_continued_rel additive terms
    (Decimal.rel_turned_of_both (Term.negations_turned member) (Term.negations_turned otherMember))

end Grammar

/-! ## Texts -/

def IsTerm (text : List Char) : Prop :=
  ∃ term : Grammar.Term, Token.symbols text = term.symbols

def negations (term rest : List Char) : List (List Char) :=
  ['-' :: (term ++ rest), parenthesized ['-'] term rest, '0' :: '-' :: (term ++ rest)]

theorem Token.symbols_minus (after : List Char) :
    symbols ('-' :: after) = .operator .sub :: symbols after :=
  symbols_operator .sub after

theorem Token.exists_negation {text rest whole : List Char} {term : Grammar.Term}
    (written : symbols text = term.symbols)
    (apart : symbols (text ++ rest) = symbols text ++ symbols rest)
    (member : whole ∈ negations text rest) :
    ∃ negation ∈ term.negations, symbols whole = negation.symbols ++ symbols rest := by
  have zero (after : List Char) :
      symbols ('0' :: '-' :: after) = .number ['0'] :: .operator .sub :: symbols after :=
    symbols_append_cons rfl ['0'] after
  simp only [negations, List.mem_cons, List.not_mem_nil, or_false] at member
  rcases member with rfl | rfl | rfl
  · refine ⟨.first true term, by simp [Grammar.Term.negations], ?_⟩
    rw [symbols_minus, apart, written]
    rfl
  · refine ⟨.first true (.factor (.group (.first false term))),
      by simp [Grammar.Term.negations], ?_⟩
    rw [symbols_parenthesized, symbols_minus, symbols_nil, written]
    simp [Grammar.Expr.symbols, Grammar.Term.symbols, Grammar.Factor.symbols, Symbol.head]
  · refine ⟨.more (.first false (.factor (.literal ['0']))) .sub rfl term,
      by simp [Grammar.Term.negations], ?_⟩
    rw [zero, apart, written]
    rfl

theorem exists_series_of_accepted {limits : Limits} {text rest : List Char} {tokens : List Token}
    {chain : Expression} (accepted : readExpression limits text = .ok (tokens, chain))
    {term : Grammar.Term}
    (symbols : Token.symbols text = (Grammar.Expr.first true term).symbols ++ Token.symbols rest)
    (continues : ∀ c ∈ rest.head?, c = '+' ∨ c = '-') :
    ∃ later, Token.symbols rest = Grammar.Factor.series later ∧
      ∀ pair ∈ later.head?, pair.1.isMultiplicative = false := by
  obtain ⟨wellFormed, written⟩ := symbols_of_accepted accepted
  obtain ⟨later, series⟩ := Grammar.Expr.exists_continuation
    ((Grammar.symbols_ofChain chain wellFormed).trans (written.trans symbols))
  refine ⟨later, series, ?_⟩
  cases later with
  | nil => exact nofun
  | cons pair later =>
    cases rest with
    | nil => cases series
    | cons c rest =>
      obtain ⟨op, rfl, additive⟩ : ∃ op : Operator,
          c = op.symbol ∧ op.isMultiplicative = false := by
        rcases continues c rfl with rfl | rfl
        · exact ⟨.add, rfl, rfl⟩
        · exact ⟨.sub, rfl, rfl⟩
      rintro _ ⟨⟩
      have sign := series.symm.trans (Token.symbols_operator op rest)
      rw [Symbol.operator.inj (List.cons.inj sign).1]
      exact additive

theorem exists_derivations {limits : Limits} {term rest : List Char} (isTerm : IsTerm term)
    (continues : ∀ c ∈ rest.head?, c = '+' ∨ c = '-')
    (accepted : ∀ text ∈ negations term rest,
      ∃ tokens chain, readExpression limits text = .ok (tokens, chain)) :
    ∃ common : Option Decimal, ∀ text ∈ negations term rest, ∃ derivation : Grammar.Expr,
      derivation.symbols = Token.symbols text ∧
        Option.Rel (Decimal.Turned false) (derivation.value Grammar.decimals) common := by
  obtain ⟨tree, written⟩ := isTerm
  obtain ⟨tokens, chain, read⟩ := accepted ('-' :: (term ++ rest)) List.mem_cons_self
  have apart : Token.symbols (term ++ rest) = Token.symbols term ++ Token.symbols rest := by
    obtain ⟨_, scanned, _⟩ := (readExpression_ok_iff _ _ _ _).mp read
    have known := ((Token.scan_ok_iff _ _).mp scanned).1
    refine Token.symbols_append_of_head (fun c inside => ?_) (fun c head => ?_) term
    · exact known c (List.mem_cons_of_mem _ (List.mem_append_right term inside))
    · rcases continues c head with rfl | rfl <;> rfl
  have symbols : Token.symbols ('-' :: (term ++ rest)) =
      (Grammar.Expr.first true tree).symbols ++ Token.symbols rest := by
    rw [Token.symbols_minus, apart, written]
    rfl
  obtain ⟨later, series, terms⟩ := exists_series_of_accepted read symbols continues
  refine ⟨(later.foldl Grammar.Expr.extend (.first true tree)).value Grammar.decimals,
    fun text member => ?_⟩
  obtain ⟨negation, inside, spelled⟩ := Token.exists_negation written apart member
  refine ⟨later.foldl Grammar.Expr.extend negation, ?_,
    Grammar.value_negations_rel terms inside List.mem_cons_self⟩
  rw [Grammar.Expr.symbols_foldl_extend, spelled, series]
  rfl

/-- A term may be negated by a head minus, by a head minus before the term in parentheses, or by a
subtraction from zero, with nothing or a sum or difference after it. The three texts, if all of them
are accepted, have one and the same rational value, or are all refused with an arithmetic error. -/
theorem evaluate_headMinus {limits : Limits} {term rest : List Char} (isTerm : IsTerm term)
    (continues : ∀ c ∈ rest.head?, c = '+' ∨ c = '-')
    (accepted : ∀ text ∈ negations term rest,
      ∃ tokens chain, readExpression limits text = .ok (tokens, chain)) :
    (∃ q : ℚ, ∀ text ∈ negations term rest,
      ∃ value, evaluate limits text = .ok value ∧ value.toRat = q) ∨
    ∀ text ∈ negations term rest,
      ∃ error, evaluate limits text = .error error ∧ error.report.isArithmetic := by
  obtain ⟨common, derivations⟩ := exists_derivations isTerm continues accepted
  cases common with
  | none =>
    refine Or.inr fun text member => ?_
    obtain ⟨tokens, chain, read⟩ := accepted text member
    obtain ⟨derivation, derives, related⟩ := derivations text member
    refine evaluate_error_of_value read derives ?_
    cases found : derivation.value Grammar.decimals with
    | none => rfl
    | some value =>
      rw [found] at related
      cases related
  | some value =>
    refine Or.inl ⟨value.toRat, fun text member => ?_⟩
    obtain ⟨tokens, chain, read⟩ := accepted text member
    obtain ⟨derivation, derives, related⟩ := derivations text member
    cases found : derivation.value Grammar.decimals with
    | none =>
      rw [found] at related
      cases related
    | some other =>
      rw [found] at related
      cases related with
      | some same =>
        exact ⟨other, (evaluate_ok_iff_value read derives other).mpr found, same.toRat_eq⟩

theorem evaluate_headMinus_roundedThird :
    IsTerm "1/3*3".toList ∧ (∀ c ∈ "+1".toList.head?, c = '+' ∨ c = '-') ∧
      (∀ text ∈ negations "1/3*3".toList "+1".toList,
        ∃ tokens chain, readExpression {} text = .ok (tokens, chain)) ∧
      negations "1/3*3".toList "+1".toList =
        ["-1/3*3+1".toList, "-(1/3*3)+1".toList, "0-1/3*3+1".toList] ∧
      ∀ text ∈ negations "1/3*3".toList "+1".toList,
        ∃ value, evaluate {} text = .ok value ∧ value.toRat = 1 / 10 ^ 28 := by
  let third : Grammar.Term := .more (.factor (.literal ['1'])) .div rfl (.literal ['3'])
  have isTerm : IsTerm "1/3*3".toList := ⟨.more third .mul rfl (.literal ['3']), rfl⟩
  have continues : ∀ c ∈ "+1".toList.head?, c = '+' ∨ c = '-' := by
    rintro _ ⟨⟩
    exact Or.inl rfl
  have texts : negations "1/3*3".toList "+1".toList =
      ["-1/3*3+1".toList, "-(1/3*3)+1".toList, "0-1/3*3+1".toList] := by decide +kernel
  have accepted : ∀ text ∈ negations "1/3*3".toList "+1".toList,
      ∃ tokens chain, readExpression {} text = .ok (tokens, chain) := by
    rw [texts]
    simp only [List.forall_mem_cons, List.not_mem_nil, false_implies, implies_true, and_true]
    exact ⟨⟨_, _, rfl⟩, ⟨_, _, rfl⟩, ⟨_, _, rfl⟩⟩
  have came : evaluate {} "-1/3*3+1".toList = .ok ⟨false, 1, 28⟩ := by decide +kernel
  have first : "-1/3*3+1".toList ∈ negations "1/3*3".toList "+1".toList := by
    rw [texts]
    exact List.mem_cons_self
  refine ⟨isTerm, continues, accepted, texts, ?_⟩
  rcases evaluate_headMinus isTerm continues accepted with ⟨q, values⟩ | errors
  · obtain ⟨value, answered, exactly⟩ := values _ first
    rw [came] at answered
    cases answered
    have known : q = 1 / 10 ^ 28 := by
      rw [← exactly]
      simp [Decimal.toRat, Decimal.magnitude, Magnitude.toRat]
    rw [← known]
    exact values
  · obtain ⟨error, failed, _⟩ := errors _ first
    rw [came] at failed
    cases failed

end ExactCalc
