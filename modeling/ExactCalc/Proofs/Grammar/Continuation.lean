import ExactCalc.Proofs.Chain.Unbalanced
import ExactCalc.Proofs.Grammar.Denotation

/-! What follows a term in an expression.

A factor ends where its own symbols say: a literal is one symbol, and a group ends at the
parenthesis that closes it. So what follows a term is a series of factors, each behind its operator,
and the derivation of the whole is that of the part before, extended factor by factor.
-/

set_option autoImplicit false

namespace ExactCalc.Grammar

def Factor.series (pairs : List (Operator × Factor)) : List Symbol :=
  pairs.flatMap fun (op, factor) => .operator op :: factor.symbols

theorem Expr.balanced (expr : Expr) : Symbol.Balanced expr.symbols := by
  have represents := expr.represented
  rw [← represents.symbols]
  exact (expr.chain.isSentence_symbols represents.wellFormed).balanced

/-- Where a factor begins, its symbols tell where it ends. -/
theorem Factor.append_inj {first second : Factor} {after rest : List Symbol}
    (same : first.symbols ++ after = second.symbols ++ rest) : first = second ∧ after = rest := by
  cases first with
  | literal lexeme =>
    cases second with
    | literal other => simpa [Factor.symbols] using same
    | group inner => simp [Factor.symbols] at same
  | group inner =>
    cases second with
    | literal lexeme => simp [Factor.symbols] at same
    | group other =>
      have inside : inner.symbols ++ .closing :: after = other.symbols ++ .closing :: rest := by
        simpa [Factor.symbols] using same
      obtain ⟨symbols, tail⟩ := inner.balanced.append_closing_inj other.balanced inside
      exact ⟨congrArg Factor.group (Expr.eq_of_symbols symbols), tail⟩

theorem Factor.operator_not_first (factor : Factor) (op : Operator) {after rest : List Symbol} :
    .operator op :: after ≠ factor.symbols ++ rest := by
  cases factor <;> simp [Factor.symbols]

theorem Expr.exists_series (expr : Expr) : ∃ (negated : Bool) (first : Factor)
    (pairs : List (Operator × Factor)),
      expr.symbols = Symbol.head negated ++ (first.symbols ++ Factor.series pairs) := by
  have represents := expr.represented
  obtain ⟨negated, first, rest, operators, same, _⟩ := represents.wellFormed.exists_first
  refine ⟨negated, ofOperand first, operators.zip (rest.map ofOperand), ?_⟩
  rw [← represents.grouped, same, ofChain_cons, Expr.symbols_foldl_extend, Expr.symbols,
    Term.symbols, List.append_assoc]
  rfl

theorem Term.exists_continuation {term : Term} {first : Factor}
    {pairs : List (Operator × Factor)} {rest : List Symbol}
    (same : term.symbols ++ rest = first.symbols ++ Factor.series pairs) :
    ∃ later, rest = Factor.series later := by
  induction term generalizing rest with
  | factor only => exact ⟨pairs, (Factor.append_inj same).2⟩
  | more before op _ last ih =>
    rw [Term.symbols, List.append_assoc] at same
    obtain ⟨later, tail⟩ := ih same
    cases later with
    | nil => cases tail
    | cons pair later =>
      have inside : last.symbols ++ rest = pair.2.symbols ++ Factor.series later :=
        (List.cons.inj tail).2
      exact ⟨later, (Factor.append_inj inside).2⟩

theorem Expr.exists_continuation {expr : Expr} {term : Term} {rest : List Symbol}
    (same : expr.symbols = .operator .sub :: (term.symbols ++ rest)) :
    ∃ later, rest = Factor.series later := by
  obtain ⟨negated, first, pairs, whole⟩ := expr.exists_series
  rw [whole] at same
  cases negated with
  | false => exact absurd same.symm (first.operator_not_first .sub)
  | true => exact Term.exists_continuation (List.cons.inj same).2.symm

/-! ## Values of what is continued -/

variable {α : Type} {semantics : Semantics α} {same : α → α → Prop}

theorem Semantics.combine_rel {op : Operator}
    (keeps : ∀ a b c, same a b → Option.Rel same (semantics.apply op a c) (semantics.apply op b c))
    {left other : Option α} (alike : Option.Rel same left other) (right : Option α) :
    Option.Rel same (semantics.combine op left right) (semantics.combine op other right) := by
  cases alike with
  | none => exact .none
  | some alike =>
    cases right with
    | none => exact .none
    | some c => exact keeps _ _ c alike

theorem Expr.value_foldl_rel
    (keeps : ∀ op : Operator, op.isMultiplicative = false → ∀ a b c, same a b →
      Option.Rel same (semantics.apply op a c) (semantics.apply op b c))
    (later : List (Operator × Factor)) {before other : Expr}
    (alike : Option.Rel same (before.value semantics) (other.value semantics)) (op : Operator)
    (additive : op.isMultiplicative = false) (last : Term) :
    Option.Rel same ((later.foldl Expr.extend (.more before op additive last)).value semantics)
      ((later.foldl Expr.extend (.more other op additive last)).value semantics) := by
  -- a product extends the last term, a sum puts it behind it in what comes before
  induction later generalizing before other op last with
  | nil => exact Semantics.combine_rel (keeps op additive) alike _
  | cons pair later ih =>
    have sums : Option.Rel same ((Expr.more before op additive last).value semantics)
        ((Expr.more other op additive last).value semantics) :=
      Semantics.combine_rel (keeps op additive) alike _
    simp only [List.foldl_cons, Expr.extend]
    split
    · exact ih alike op additive _
    · exact ih sums pair.1 _ _

/-- Expressions whose values are related, by what sums and differences keep in their first operand,
have related values with the same terms behind them. -/
theorem Expr.value_continued_rel
    (keeps : ∀ op : Operator, op.isMultiplicative = false → ∀ a b c, same a b →
      Option.Rel same (semantics.apply op a c) (semantics.apply op b c))
    {later : List (Operator × Factor)}
    (terms : ∀ pair ∈ later.head?, pair.1.isMultiplicative = false) {before other : Expr}
    (alike : Option.Rel same (before.value semantics) (other.value semantics)) :
    Option.Rel same ((later.foldl Expr.extend before).value semantics)
      ((later.foldl Expr.extend other).value semantics) := by
  cases later with
  | nil => exact alike
  | cons pair later =>
    have loose : ¬pair.1.isMultiplicative := by simp [terms pair rfl]
    simp only [List.foldl_cons, Expr.extend, dif_neg loose]
    exact Expr.value_foldl_rel keeps later alike pair.1 _ _

end ExactCalc.Grammar
