import ExactCalc.Proofs.Chain.Sentences
import ExactCalc.Proofs.Chain.Unplaced
import ExactCalc.Proofs.Evaluation.Outcome
import ExactCalc.Proofs.Token.Scanning

/-! An operand can be replaced by any other with the same outcome.

The parser takes an operand in as a whole, in whatever chain it stands. From there on it does the
same with either operand: two states whose operands have the same outcomes one by one stay so while
they read the same symbols, wherever these stand in the text.
-/

set_option autoImplicit false

namespace ExactCalc

/-! ## Outcomes do not depend on positions -/

theorem Chain.outcome_unplaced_of_operands (chain : Expression)
    (each : ∀ operand ∈ chain.operands, operand.unplaced.outcome = operand.outcome) :
    chain.unplaced.outcome = chain.outcome := by
  have same : chain.map (Operand.outcome ∘ Operand.unplaced) = chain.map Operand.outcome :=
    chain.map_congr each
  rw [Chain.outcome, Chain.unplaced, Chain.map_map, same]
  rfl

theorem Operand.outcome_unplaced (operand : Operand) :
    operand.unplaced.outcome = operand.outcome := by
  induction operand with
  | literal lexeme position => rfl
  | group chain ih =>
    rw [unplaced_group, outcome_group, outcome_group, chain.outcome_unplaced_of_operands ih]

theorem Chain.outcome_unplaced (chain : Expression) : chain.unplaced.outcome = chain.outcome :=
  chain.outcome_unplaced_of_operands fun operand _ => operand.outcome_unplaced

theorem Operand.unplaced_eq_of_symbols {first second : Operand} (left : first.WellFormed)
    (right : second.WellFormed) (same : first.symbols = second.symbols) :
    first.unplaced = second.unplaced := by
  -- an operand is written as the chain that it makes alone
  let alone (operand : Operand) : Expression := ⟨false, [operand], []⟩
  have wellFormed {operand : Operand} (wellFormed : operand.WellFormed) :
      (alone operand).WellFormed := by
    simpa [alone, Chain.wellFormed_iff] using wellFormed
  have symbols (operand : Operand) : (alone operand).symbols = operand.symbols := by
    simp [alone, Chain.symbols_cons, Symbol.head]
  have unplaced := Chain.unplaced_eq_of_symbols (wellFormed left) (wellFormed right)
    (by rw [symbols, symbols, same])
  exact List.singleton_inj.mp (congrArg Chain.operands unplaced)

theorem Operand.outcome_eq_of_symbols {first second : Operand} (left : first.WellFormed)
    (right : second.WellFormed) (same : first.symbols = second.symbols) :
    first.outcome = second.outcome := by
  rw [← first.outcome_unplaced, unplaced_eq_of_symbols left right same, second.outcome_unplaced]

/-- The operand that is read where the symbols of an operand are laid out. -/
theorem Operand.exists_placed {operand : Operand} (wellFormed : operand.WellFormed)
    (position : ℕ) :
    ∃ placed : Operand, placed.WellFormed ∧
      Token.Spells (Token.placeFrom position operand.symbols) placed.symbols placed.literals ∧
      placed.outcome = operand.outcome ∧ placed.depth = operand.depth := by
  have symbols := Token.map_symbol_placeFrom position operand.symbols
  obtain ⟨placed, placedWellFormed, spells⟩ := (operand.derives wellFormed).hasTree _ symbols
  have same := spells.symbols.symm.trans symbols
  exact ⟨placed, placedWellFormed, spells, outcome_eq_of_symbols placedWellFormed wellFormed same,
    depth_eq_of_symbols placedWellFormed wellFormed same⟩

/-! ## Parsers with operands of the same outcomes -/

namespace Draft

def outcomes (draft : Draft) : Chain (Outcome (Outcome Decimal)) :=
  draft.chain.map Operand.outcome

theorem outcomes_addOperand (draft : Draft) (operand : Operand) :
    (draft.addOperand operand).outcomes = { draft.outcomes with
      operands := draft.outcomes.operands ++ [operand.outcome] } := by
  simp [outcomes, addOperand, chain, Chain.map]

theorem outcomes_addOperator (draft : Draft) (op : Operator) :
    (draft.addOperator op).outcomes = { draft.outcomes with
      operators := draft.outcomes.operators ++ [op] } := by
  simp [outcomes, addOperator, chain, Chain.map]

theorem outcomes_negated (draft : Draft) :
    outcomes { draft with negated := true } = { draft.outcomes with negated := true } := rfl

theorem outcome_chain (draft : Draft) : Chain.outcome draft.chain = draft.outcomes.settle := rfl

end Draft

namespace Parser

/-- The parsers expect the same, and the operands that they have read so far have the same
outcomes. -/
structure Agrees (parser other : Parser) : Prop where
  current : parser.current.outcomes = other.current.outcomes
  enclosing : parser.enclosing.map Draft.outcomes = other.enclosing.map Draft.outcomes
  expects : parser.expects = other.expects

theorem Agrees.refl (parser : Parser) : parser.Agrees parser := ⟨rfl, rfl, rfl⟩

variable {parser other next : Parser}

theorem Agrees.addOperand (agrees : parser.Agrees other) {operand replacement : Operand}
    (same : operand.outcome = replacement.outcome) :
    Agrees { parser with current := parser.current.addOperand operand, expects := .operator }
      { other with current := other.current.addOperand replacement, expects := .operator } where
  current := by rw [Draft.outcomes_addOperand, Draft.outcomes_addOperand, agrees.current, same]
  enclosing := agrees.enclosing
  expects := rfl

theorem Agrees.step (agrees : parser.Agrees other) {token moved : Token}
    (same : token.symbol = moved.symbol) (reads : parser.Reads token next) :
    ∃ later, other.Reads moved later ∧ next.Agrees later := by
  cases reads with
  | number lexeme symbol expects =>
    rw [same] at symbol
    rw [agrees.expects] at expects
    exact ⟨_, .number lexeme symbol expects, agrees.addOperand rfl⟩
  | opening symbol expects =>
    rw [same] at symbol
    rw [agrees.expects] at expects
    refine ⟨_, .opening symbol expects, rfl, ?_, rfl⟩
    rw [List.map_cons, List.map_cons, agrees.current, agrees.enclosing]
  | minus symbol expects =>
    rw [same] at symbol
    rw [agrees.expects] at expects
    refine ⟨_, .minus symbol expects, ?_, agrees.enclosing, rfl⟩
    rw [Draft.outcomes_negated, Draft.outcomes_negated, agrees.current]
  | operator op symbol expects =>
    rw [same] at symbol
    rw [agrees.expects] at expects
    refine ⟨_, .operator op symbol expects, ?_, agrees.enclosing, rfl⟩
    rw [Draft.outcomes_addOperator, Draft.outcomes_addOperator, agrees.current]
  | closing outer enclosing symbol expects inside =>
    rw [same] at symbol
    rw [agrees.expects] at expects
    -- the chain that is closed has the same outcome in both
    have closed : (Operand.group parser.current.chain).outcome =
        (Operand.group other.current.chain).outcome := by
      rw [Operand.outcome_group, Operand.outcome_group, Draft.outcome_chain, Draft.outcome_chain,
        agrees.current]
    have around := agrees.enclosing
    rw [inside] at around
    obtain ⟨otherOuter, otherEnclosing, otherInside, outerSame, restSame⟩ :=
      List.map_eq_cons_iff.mp around.symm
    refine ⟨_, .closing otherOuter otherEnclosing symbol expects otherInside, ?_, restSame.symm,
      rfl⟩
    rw [Draft.outcomes_addOperand, Draft.outcomes_addOperand, closed, outerSame]

theorem Agrees.run {tokens moved : List Token}
    (same : tokens.map (·.symbol) = moved.map (·.symbol)) (agrees : parser.Agrees other)
    (ran : tokens.foldlM Parser.step parser = .ok next) :
    ∃ later, moved.foldlM Parser.step other = .ok later ∧ next.Agrees later := by
  induction tokens generalizing moved parser other with
  | nil =>
    obtain rfl : moved = [] := List.map_eq_nil_iff.mp same.symm
    cases ran
    exact ⟨other, rfl, agrees⟩
  | cons token rest ih =>
    obtain ⟨head, tail, rfl, symbol, symbols⟩ := List.map_eq_cons_iff.mp same.symm
    rw [List.foldlM_cons] at ran
    obtain ⟨between, stepped, ran⟩ := Except.bind_eq_ok_iff.mp ran
    obtain ⟨otherBetween, reads, agrees⟩ := agrees.step symbol.symm (reads_of_step stepped)
    rw [run_cons reads]
    exact ih symbols.symm agrees ran

theorem Agrees.finish (agrees : parser.Agrees other) {endPosition : ℕ} {chain : Expression}
    (finished : parser.finish endPosition = .ok chain) (otherEnd : ℕ) :
    ∃ otherChain, other.finish otherEnd = .ok otherChain ∧
      otherChain.outcome = chain.outcome := by
  obtain ⟨current, enclosing, stage⟩ := parser
  obtain ⟨otherCurrent, otherEnclosing, otherStage⟩ := other
  obtain ⟨same, around, rfl⟩ := agrees
  cases stage with
  | chain => cases finished
  | operand => cases finished
  | operator =>
    cases enclosing with
    | cons outer rest => cases finished
    | nil =>
      cases finished
      obtain rfl : otherEnclosing = [] := List.map_eq_nil_iff.mp around.symm
      exact ⟨otherCurrent.chain, rfl, congrArg Chain.settle same.symm⟩

theorem expects_of_run {operand : Operand} {tokens rest : List Token}
    (symbols : tokens.map (·.symbol) = operand.symbols)
    (ran : (tokens ++ rest).foldlM Parser.step parser = .ok next) :
    parser.expects ≠ .operator := by
  have starts : ∃ first later, operand.symbols = first :: later ∧
      (first = .opening ∨ ∃ lexeme, first = .number lexeme) := by
    cases operand with
    | literal lexeme position => exact ⟨_, _, rfl, Or.inr ⟨lexeme, rfl⟩⟩
    | group chain => exact ⟨_, _, Operand.symbols_group chain, Or.inl rfl⟩
  obtain ⟨first, later, written, kind⟩ := starts
  obtain ⟨token, tail, rfl, rfl, _⟩ := List.map_eq_cons_iff.mp (symbols.trans written)
  rw [List.cons_append, List.foldlM_cons] at ran
  obtain ⟨between, stepped, _⟩ := Except.bind_eq_ok_iff.mp ran
  cases reads_of_step stepped with
  | number _ _ expects => exact expects
  | opening _ expects => exact expects
  | minus symbol _ => simp [symbol] at kind
  | operator op symbol _ => simp [symbol] at kind
  | closing _ _ symbol _ _ => simp [symbol] at kind

end Parser

/-! ## Chains with an operand replaced -/

theorem Nesting.check_replaced {maxDepth : ℕ} {before part after others later : List Token}
    {operand replacement : Operand} (wellFormed : operand.WellFormed)
    (otherWellFormed : replacement.WellFormed) (depth : replacement.depth ≤ operand.depth)
    (symbols : part.map (·.symbol) = operand.symbols)
    (otherSymbols : others.map (·.symbol) = replacement.symbols)
    (same : after.map (·.symbol) = later.map (·.symbol))
    (checked : Nesting.check maxDepth (before ++ (part ++ after)) = .ok ()) :
    Nesting.check maxDepth (before ++ (others ++ later)) = .ok () := by
  rw [Nesting.check_ok_iff] at checked ⊢
  simp only [List.map_append, symbols, otherSymbols, ← same] at checked ⊢
  obtain ⟨balanced, within⟩ := checked
  constructor
  · rw [Symbol.balanced_insert_iff (operand.derives wellFormed).balanced] at balanced
    have closes := (replacement.derives otherWellFormed).balanced
    exact (Symbol.balanced_insert_iff closes _ _).mpr balanced
  · rw [Symbol.nestsWithin_append, Symbol.nestsWithin_append, operand.nestsWithin_iff wellFormed,
      operand.rise_symbols wellFormed] at within
    rw [Symbol.nestsWithin_append, Symbol.nestsWithin_append,
      replacement.nestsWithin_iff otherWellFormed, replacement.rise_symbols otherWellFormed]
    obtain ⟨early, inside, late⟩ := within
    exact ⟨early, by omega, late⟩

/-- Where an operand is replaced by one of the same outcome that nests no deeper, the chain is read
again and has the same outcome. -/
theorem Chain.parse_replaced {maxDepth endPosition : ℕ}
    {before part after others later : List Token} {operand replacement : Operand}
    {chain : Expression} (wellFormed : operand.WellFormed)
    (spells : Token.Spells part operand.symbols operand.literals)
    (otherWellFormed : replacement.WellFormed)
    (otherSpells : Token.Spells others replacement.symbols replacement.literals)
    (depth : replacement.depth ≤ operand.depth) (outcome : operand.outcome = replacement.outcome)
    (same : after.map (·.symbol) = later.map (·.symbol))
    (parsed : Chain.parse maxDepth endPosition (before ++ (part ++ after)) = .ok chain)
    (otherEnd : ℕ) :
    ∃ other, Chain.parse maxDepth otherEnd (before ++ (others ++ later)) = .ok other ∧
      other.outcome = chain.outcome := by
  unfold Chain.parse at parsed
  obtain ⟨_, checked, parsed⟩ := Except.bind_eq_ok_iff.mp parsed
  obtain ⟨final, ran, finished⟩ := Except.bind_eq_ok_iff.mp parsed
  rw [List.foldlM_append] at ran
  obtain ⟨start, first, ran⟩ := Except.bind_eq_ok_iff.mp ran
  -- both operands are taken in from one state, and what follows is read alike
  have waits := Parser.expects_of_run spells.symbols ran
  rw [Parser.run_append (operand.takesIn wellFormed part start spells waits)] at ran
  obtain ⟨last, otherRan, agrees⟩ := ((Parser.Agrees.refl start).addOperand outcome).run same ran
  obtain ⟨other, otherFinished, result⟩ := agrees.finish finished otherEnd
  have taken := replacement.takesIn otherWellFormed others start otherSpells waits
  refine ⟨other, ?_, result⟩
  unfold Chain.parse
  rw [Nesting.check_replaced wellFormed otherWellFormed depth spells.symbols otherSpells.symbols
    same checked]
  refine Except.bind_eq_ok_iff.mpr ⟨(), rfl, Except.bind_eq_ok_iff.mpr ⟨last, ?_, otherFinished⟩⟩
  rw [Parser.run_append first, Parser.run_append taken, otherRan]

theorem Chain.parse_placed_replaced {maxDepth endPosition : ℕ} {before after : List Symbol}
    {operand replacement : Operand} {chain : Expression} (wellFormed : operand.WellFormed)
    (otherWellFormed : replacement.WellFormed) (depth : replacement.depth ≤ operand.depth)
    (outcome : operand.outcome = replacement.outcome)
    (parsed : Chain.parse maxDepth endPosition
      (Token.placeFrom 0 (before ++ (operand.symbols ++ after))) = .ok chain) (otherEnd : ℕ) :
    ∃ other, Chain.parse maxDepth otherEnd
        (Token.placeFrom 0 (before ++ (replacement.symbols ++ after))) = .ok other ∧
      other.outcome = chain.outcome := by
  rw [Token.placeFrom_append, Token.placeFrom_append] at parsed ⊢
  obtain ⟨placed, placedWellFormed, spells, placedOutcome, placedDepth⟩ :=
    Operand.exists_placed wellFormed (0 + byteLength (before.flatMap Symbol.text))
  obtain ⟨other, newWellFormed, otherSpells, newOutcome, newDepth⟩ :=
    Operand.exists_placed otherWellFormed (0 + byteLength (before.flatMap Symbol.text))
  refine Chain.parse_replaced placedWellFormed spells newWellFormed otherSpells ?_ ?_ ?_ parsed
    otherEnd
  · rw [newDepth, placedDepth]
    exact depth
  · rw [placedOutcome, newOutcome, outcome]
  · rw [Token.map_symbol_placeFrom, Token.map_symbol_placeFrom]

end ExactCalc
