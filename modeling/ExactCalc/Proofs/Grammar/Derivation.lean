import ExactCalc.Proofs.Chain.Unplaced

/-! The grammar with precedences: products and quotients bind tighter than sums and differences.

    expr   := ['-'] term (('+' | '-') term)*
    term   := factor (('*' | '/') factor)*
    factor := NUMBER | '(' expr ')'

A repetition leans to the left, so that its last member is at the root. Every well-formed tree of
chains is grouped into one derivation, and a sentence has no second one.
-/

set_option autoImplicit false

namespace ExactCalc.Grammar

mutual

inductive Factor where
  | literal (lexeme : List Char)
  | group (inner : Expr)

inductive Term where
  | factor (only : Factor)
  | more (before : Term) (op : Operator) (multiplicative : op.isMultiplicative = true)
      (last : Factor)

inductive Expr where
  | first (negated : Bool) (term : Term)
  | more (before : Expr) (op : Operator) (additive : op.isMultiplicative = false) (last : Term)

end

mutual

def Factor.symbols : Factor → List Symbol
  | .literal lexeme => [.number lexeme]
  | .group inner => .opening :: inner.symbols ++ [.closing]

def Term.symbols : Term → List Symbol
  | .factor only => only.symbols
  | .more before op _ last => before.symbols ++ .operator op :: last.symbols

def Expr.symbols : Expr → List Symbol
  | .first negated term => Symbol.head negated ++ term.symbols
  | .more before op _ last => before.symbols ++ .operator op :: last.symbols

end

/-! ## From chains to derivations -/

def Expr.multiply (op : Operator) (tight : op.isMultiplicative = true) (last : Factor) :
    Expr → Expr
  | .first negated term => .first negated (.more term op tight last)
  | .more before sign additive term => .more before sign additive (.more term op tight last)

def Expr.extend (before : Expr) : Operator × Factor → Expr
  | (op, last) =>
    if tight : op.isMultiplicative then before.multiply op tight last
    else .more before op (Bool.eq_false_iff.mpr tight) (.factor last)

/-- The factors of one level grouped into terms. A level without any is an empty literal. -/
def regroup (level : Chain Factor) : Expr :=
  match level.operands with
  | [] => .first level.negated (.factor (.literal []))
  | first :: rest =>
    (level.operators.zip rest).foldl Expr.extend (.first level.negated (.factor first))

def ofOperand : Operand → Factor :=
  Operand.fold (fun lexeme _ => .literal lexeme) (fun level => .group (regroup level))

def ofChain (chain : Expression) : Expr := regroup (chain.map ofOperand)

@[simp] theorem ofOperand_literal (lexeme : List Char) (position : Nat) :
    ofOperand (.literal lexeme position) = .literal lexeme := rfl

@[simp] theorem ofOperand_group (chain : Expression) :
    ofOperand (.group chain) = .group (ofChain chain) := by
  rw [ofOperand, Operand.fold_group]
  rfl

theorem ofChain_cons (negated : Bool) (first : Operand) (rest : List Operand)
    (operators : List Operator) :
    ofChain ⟨negated, first :: rest, operators⟩ =
      (operators.zip (rest.map ofOperand)).foldl Expr.extend
        (.first negated (.factor (ofOperand first))) := rfl

theorem Expr.symbols_extend (before : Expr) (op : Operator) (last : Factor) :
    (before.extend (op, last)).symbols = before.symbols ++ .operator op :: last.symbols := by
  simp only [extend]
  split
  · cases before <;> simp [multiply, Expr.symbols, Term.symbols, List.append_assoc]
  · simp [Expr.symbols, Term.symbols]

theorem Expr.symbols_foldl_extend (pairs : List (Operator × Factor)) (before : Expr) :
    (pairs.foldl extend before).symbols =
      before.symbols ++ pairs.flatMap fun (op, last) => .operator op :: last.symbols := by
  induction pairs generalizing before with
  | nil => simp
  | cons pair rest ih =>
    obtain ⟨op, last⟩ := pair
    simp [ih, symbols_extend]

theorem symbols_ofChain_of_operands (chain : Expression) (wellFormed : chain.WellFormed)
    (each : ∀ operand ∈ chain.operands, (ofOperand operand).symbols = operand.symbols) :
    (ofChain chain).symbols = chain.symbols := by
  obtain ⟨negated, first, rest, operators, rfl, length⟩ := wellFormed.exists_first
  have head := each first List.mem_cons_self
  have tail : ∀ pair ∈ operators.zip rest, (ofOperand pair.2).symbols = pair.2.symbols :=
    fun pair inside => each pair.2 (List.mem_cons_of_mem first (List.of_mem_zip inside).2)
  rw [ofChain_cons, Expr.symbols_foldl_extend, Chain.symbols_cons _ _ _ _ (Nat.le_of_eq length),
    List.zip_map_right, List.flatMap_map, Expr.symbols, Term.symbols, head, Symbol.series]
  congr 1
  -- piece by piece, each behind its operator
  rw [List.flatMap_def, List.flatMap_def]
  congr 1
  refine List.map_congr_left fun pair inside => ?_
  exact congrArg (Symbol.operator pair.1 :: ·) (tail pair inside)

theorem symbols_ofOperand (operand : Operand) (wellFormed : operand.WellFormed) :
    (ofOperand operand).symbols = operand.symbols := by
  induction operand, wellFormed using Operand.WellFormed.induct with
  | literal lexeme position => rfl
  | group chain wellFormed ih =>
    rw [ofOperand_group, Operand.symbols_group, Factor.symbols,
      symbols_ofChain_of_operands chain wellFormed ih]

theorem symbols_ofChain (chain : Expression) (wellFormed : chain.WellFormed) :
    (ofChain chain).symbols = chain.symbols :=
  symbols_ofChain_of_operands chain wellFormed fun operand inside =>
    symbols_ofOperand operand (wellFormed.operand inside)

theorem ofChain_unplaced_of_operands (chain : Expression)
    (each : ∀ operand ∈ chain.operands, ofOperand operand.unplaced = ofOperand operand) :
    ofChain chain.unplaced = ofChain chain := by
  have same : chain.map (ofOperand ∘ Operand.unplaced) = chain.map ofOperand :=
    chain.map_congr each
  rw [ofChain, Chain.unplaced, Chain.map_map, same, ofChain]

theorem ofOperand_unplaced (operand : Operand) :
    ofOperand operand.unplaced = ofOperand operand := by
  induction operand with
  | literal lexeme position => rfl
  | group chain ih =>
    rw [Operand.unplaced_group, ofOperand_group, ofOperand_group,
      ofChain_unplaced_of_operands chain ih]

theorem ofChain_unplaced (chain : Expression) : ofChain chain.unplaced = ofChain chain :=
  ofChain_unplaced_of_operands chain fun operand _ => ofOperand_unplaced operand

/-! ## From derivations to chains -/

def concat (chain : Expression) (op : Operator) (last : Operand) : Expression :=
  ⟨chain.negated, chain.operands ++ [last], chain.operators ++ [op]⟩

mutual

def Factor.operand : Factor → Operand
  | .literal lexeme => .literal lexeme 0
  | .group inner => .group inner.chain

def Term.onto (start : Operand → Expression) : Term → Expression
  | .factor only => start only.operand
  | .more before op _ last => concat (before.onto start) op last.operand

/-- The chain that is written as the derivation derives, with all its literals at position zero. -/
def Expr.chain : Expr → Expression
  | .first negated term => term.onto fun first => ⟨negated, [first], []⟩
  | .more before op _ last => last.onto (concat before.chain op)

end

theorem wellFormed_single (negated : Bool) {first : Operand} (wellFormed : first.WellFormed) :
    Chain.WellFormed ⟨negated, [first], []⟩ :=
  (Chain.wellFormed_iff _).mpr ⟨rfl, by simpa using wellFormed⟩

theorem wellFormed_concat {chain : Expression} (wellFormed : chain.WellFormed) (op : Operator)
    {last : Operand} (complete : last.WellFormed) : (concat chain op last).WellFormed := by
  obtain ⟨length, members⟩ := (Chain.wellFormed_iff chain).mp wellFormed
  refine (Chain.wellFormed_iff _).mpr ⟨by simp [concat, length], ?_⟩
  simp only [concat, List.forall_mem_append, List.forall_mem_singleton]
  exact ⟨members, complete⟩

theorem symbols_concat {chain : Expression} (wellFormed : chain.WellFormed) (op : Operator)
    (last : Operand) :
    (concat chain op last).symbols = chain.symbols ++ .operator op :: last.symbols :=
  Chain.symbols_concat _ _ _ op last ((Chain.wellFormed_iff chain).mp wellFormed).1

theorem ofChain_concat {chain : Expression} (wellFormed : chain.WellFormed) (op : Operator)
    (last : Operand) :
    ofChain (concat chain op last) = (ofChain chain).extend (op, ofOperand last) := by
  obtain ⟨negated, first, rest, operators, rfl, length⟩ := wellFormed.exists_first
  have same : operators.length = (rest.map ofOperand).length := by
    rw [List.length_map, length]
  rw [concat, List.cons_append, ofChain_cons, ofChain_cons, List.map_append,
    List.zip_append same, List.foldl_append]
  rfl

/-- The chain is well-formed, is written as the derivation derives and is grouped into it. -/
structure Represents (chain : Expression) (derivation : Expr) : Prop where
  wellFormed : chain.WellFormed
  symbols : chain.symbols = derivation.symbols
  grouped : ofChain chain = derivation

mutual

theorem Factor.represented : ∀ factor : Factor,
    factor.operand.WellFormed ∧ factor.operand.symbols = factor.symbols ∧
      ofOperand factor.operand = factor
  | .literal lexeme => ⟨trivial, rfl, rfl⟩
  | .group inner => by
    -- a group is one operand, whatever is inside
    have represents := inner.represented
    rw [Factor.operand, Factor.symbols]
    simp [represents.wellFormed, represents.symbols, represents.grouped]

/-- A term continues the derivation that its first factor starts. `around` is what stands around
the term in the derivation. -/
theorem Term.represented (start : Operand → Expression) (around : Term → Expr)
    (starts : ∀ factor : Factor, factor.operand.WellFormed →
      factor.operand.symbols = factor.symbols → ofOperand factor.operand = factor →
      Represents (start factor.operand) (around (.factor factor)))
    (grows : ∀ before op tight last,
      (around before).extend (op, last) = around (.more before op tight last)) :
    ∀ term : Term, Represents (term.onto start) (around term)
  | .factor only =>
    have ⟨wellFormed, symbols, grouped⟩ := only.represented
    starts only wellFormed symbols grouped
  | .more before op tight last => by
    have represents := before.represented start around starts grows
    obtain ⟨wellFormed, symbols, grouped⟩ := last.represented
    rw [Term.onto, ← grows]
    exact {
      wellFormed := wellFormed_concat represents.wellFormed op wellFormed
      symbols := by
        rw [symbols_concat represents.wellFormed, represents.symbols, symbols,
          Expr.symbols_extend]
      grouped := by rw [ofChain_concat represents.wellFormed, represents.grouped, grouped] }

theorem Expr.represented : ∀ expr : Expr, Represents expr.chain expr
  | .first negated term => by
    refine term.represented _ (.first negated) (fun factor wellFormed symbols grouped => ?_)
      fun before op tight last => ?_
    · exact {
        wellFormed := wellFormed_single negated wellFormed
        symbols := by
          have written := Chain.symbols_cons negated factor.operand [] [] (Nat.le_refl 0)
          rw [written, symbols]
          simp [Expr.symbols, Term.symbols]
        grouped := by rw [ofChain_cons, grouped]; rfl }
    · exact dif_pos tight
  | .more before op additive last => by
    have represents := before.represented
    refine last.represented _ (.more before op additive)
      (fun factor wellFormed symbols grouped => ?_) fun before op tight last => ?_
    · exact {
        wellFormed := wellFormed_concat represents.wellFormed op wellFormed
        symbols := by
          rw [symbols_concat represents.wellFormed, represents.symbols, symbols]
          rfl
        grouped := by
          rw [ofChain_concat represents.wellFormed, represents.grouped, grouped]
          simp [Expr.extend, additive] }
    · exact dif_pos tight

end

/-- Induction on a term from its first factor on. -/
@[induction_eliminator]
theorem Term.induct {motive : Term → Prop} (factor : ∀ only, motive (.factor only))
    (more : ∀ before op tight last, motive before → motive (.more before op tight last)) :
    ∀ term, motive term
  | .factor only => factor only
  | .more before op tight last => more before op tight last (Term.induct factor more before)

/-- No two derivations derive the same symbols. -/
theorem Expr.eq_of_symbols {first second : Expr} (same : first.symbols = second.symbols) :
    first = second := by
  have one := first.represented
  have other := second.represented
  -- the chains of both are the same, and each is grouped into its derivation
  have alike := Chain.unplaced_eq_of_symbols one.wellFormed other.wellFormed
    (one.symbols.trans (same.trans other.symbols.symm))
  calc first = ofChain first.chain.unplaced := by rw [ofChain_unplaced, one.grouped]
    _ = ofChain second.chain.unplaced := by rw [alike]
    _ = second := by rw [ofChain_unplaced, other.grouped]

end ExactCalc.Grammar
