import ExactCalc.Chain.Parser
import ExactCalc.Proofs.Chain.Balance

/-! The parser accepts the sentences of the grammar that nest within the limit, each with its one
tree.

A parser state stands for all tokens read so far: those of the enclosing chains up to their open
parenthesis, then those of the current chain. Each step adds its token (soundness); and reading
the tokens of an operand takes a state to the one with that operand added (completeness).
-/

set_option autoImplicit false

namespace ExactCalc

def Token.literal? (token : Token) : Option (List Char × Nat) :=
  match token.symbol with
  | .number lexeme => some (lexeme, token.position)
  | _ => none

namespace Draft

/-- What is written of a chain that waits for its next operand. -/
def openSymbols (draft : Draft) : List Symbol :=
  match draft.operators with
  | [] => Symbol.head draft.negated
  | op :: earlier => Chain.symbols { draft with operators := earlier }.chain ++ [.operator op]

structure Waiting (draft : Draft) : Prop where
  length : draft.operands.length = draft.operators.length
  operands : ∀ operand ∈ draft.operands, operand.WellFormed

structure Complete (draft : Draft) : Prop where
  length : draft.operands.length = draft.operators.length + 1
  operands : ∀ operand ∈ draft.operands, operand.WellFormed

theorem Complete.wellFormed {draft : Draft} (complete : draft.Complete) :
    draft.chain.WellFormed := by
  refine (Chain.wellFormed_iff _).mpr ⟨?_, fun operand member => ?_⟩
  · simpa [chain] using complete.length
  · exact complete.operands operand (by simpa [chain] using member)

theorem Waiting.addOperand {draft : Draft} (waiting : draft.Waiting) {operand : Operand}
    (wellFormed : operand.WellFormed) : (draft.addOperand operand).Complete where
  length := by simp [Draft.addOperand, waiting.length]
  operands := List.forall_mem_cons.mpr ⟨wellFormed, waiting.operands⟩

theorem Complete.addOperator {draft : Draft} (complete : draft.Complete) (op : Operator) :
    (draft.addOperator op).Waiting where
  length := by simp [Draft.addOperator, complete.length]
  operands := complete.operands

theorem Waiting.symbols_addOperand {draft : Draft} (waiting : draft.Waiting) (operand : Operand) :
    Chain.symbols (draft.addOperand operand).chain = draft.openSymbols ++ operand.symbols := by
  obtain ⟨negated, operands, operators⟩ := draft
  have length := waiting.length
  cases operators with
  | nil =>
    obtain rfl : operands = [] := List.length_eq_zero_iff.mp length
    exact (Chain.symbols_cons negated operand [] [] (Nat.le_refl 0)).trans (List.append_nil _)
  | cons op earlier =>
    have whole := Chain.symbols_concat negated operands.reverse earlier.reverse op operand
      (by simpa using length)
    simpa [openSymbols, chain, Draft.addOperand] using whole

theorem openSymbols_addOperator (draft : Draft) (op : Operator) :
    (draft.addOperator op).openSymbols = Chain.symbols draft.chain ++ [.operator op] := rfl

theorem literals_addOperator (draft : Draft) (op : Operator) :
    Chain.literals (draft.addOperator op).chain = Chain.literals draft.chain := rfl

theorem literals_addOperand (draft : Draft) (operand : Operand) :
    Chain.literals (draft.addOperand operand).chain =
      Chain.literals draft.chain ++ operand.literals := by
  simp [Chain.literals, chain, addOperand]

end Draft

namespace Parser

/-! ## What a step does -/

/-- The steps of the parser, by the kind of token read. -/
inductive Reads (parser : Parser) (token : Token) : Parser → Prop where
  | number (lexeme : List Char) (symbol : token.symbol = .number lexeme)
      (expects : parser.expects ≠ .operator) :
      Reads parser token { parser with
        current := parser.current.addOperand (.literal lexeme token.position)
        expects := .operator }
  | opening (symbol : token.symbol = .opening) (expects : parser.expects ≠ .operator) :
      Reads parser token { enclosing := parser.current :: parser.enclosing }
  | minus (symbol : token.symbol = .operator .sub) (expects : parser.expects = .chain) :
      Reads parser token { parser with
        current := { parser.current with negated := true }, expects := .operand }
  | operator (op : Operator) (symbol : token.symbol = .operator op)
      (expects : parser.expects = .operator) :
      Reads parser token { parser with
        current := parser.current.addOperator op, expects := .operand }
  | closing (outer : Draft) (enclosing : List Draft) (symbol : token.symbol = .closing)
      (expects : parser.expects = .operator) (inside : parser.enclosing = outer :: enclosing) :
      Reads parser token {
        current := outer.addOperand (.group parser.current.chain)
        enclosing
        expects := .operator }

theorem Reads.step_eq {parser next : Parser} {token : Token} (reads : parser.Reads token next) :
    parser.step token = .ok next := by
  obtain ⟨current, enclosing, stage⟩ := parser
  obtain ⟨_, position⟩ := token
  cases reads with
  | number lexeme symbol expects =>
    cases symbol
    cases stage with
    | chain => rfl
    | operand => rfl
    | operator => exact absurd rfl expects
  | opening symbol expects =>
    cases symbol
    cases stage with
    | chain => rfl
    | operand => rfl
    | operator => exact absurd rfl expects
  | minus symbol expects =>
    cases symbol
    cases expects
    rfl
  | operator op symbol expects =>
    cases symbol
    cases expects
    rfl
  | closing outer enclosing symbol expects inside =>
    cases symbol
    cases expects
    cases inside
    rfl

theorem reads_of_step {parser next : Parser} {token : Token}
    (stepped : parser.step token = .ok next) : parser.Reads token next := by
  obtain ⟨current, enclosing, stage⟩ := parser
  obtain ⟨symbol, position⟩ := token
  -- by what is expected, then by what is read; where the two do not go together nothing is left
  cases stage with
  | chain =>
    cases symbol with
    | number lexeme => cases stepped; exact .number lexeme rfl nofun
    | operator op =>
      cases op with
      | sub => cases stepped; exact .minus rfl rfl
      | _ => cases stepped
    | opening => cases stepped; exact .opening rfl nofun
    | closing => cases stepped
  | operand =>
    cases symbol with
    | number lexeme => cases stepped; exact .number lexeme rfl nofun
    | operator op => cases op <;> cases stepped
    | opening => cases stepped; exact .opening rfl nofun
    | closing => cases stepped
  | operator =>
    cases symbol with
    | number lexeme => cases stepped
    | operator op => cases op <;> cases stepped <;> exact .operator _ rfl rfl
    | opening => cases stepped
    | closing =>
      cases enclosing with
      | nil => cases stepped
      | cons outer enclosing => cases stepped; exact .closing outer enclosing rfl rfl rfl

/-! ## Soundness -/

def outerSymbols : List Draft → List Symbol
  | [] => []
  | draft :: rest => outerSymbols rest ++ draft.openSymbols ++ [.opening]

def outerLiterals : List Draft → List (List Char × Nat)
  | [] => []
  | draft :: rest => outerLiterals rest ++ Chain.literals draft.chain

def currentSymbols (parser : Parser) : List Symbol :=
  match parser.expects with
  | .operator => Chain.symbols parser.current.chain
  | _ => parser.current.openSymbols

def CurrentFits (parser : Parser) : Prop :=
  match parser.expects with
  | .chain => parser.current = {}
  | .operand => parser.current.Waiting
  | .operator => parser.current.Complete

/-- The parser has read these tokens and has kept all of them. -/
structure HasRead (tokens : List Token) (parser : Parser) : Prop where
  symbols : outerSymbols parser.enclosing ++ parser.currentSymbols = tokens.map (·.symbol)
  literals : outerLiterals parser.enclosing ++ Chain.literals parser.current.chain =
    tokens.filterMap Token.literal?
  enclosing : ∀ draft ∈ parser.enclosing, draft.Waiting
  current : parser.CurrentFits

theorem hasRead_nil : HasRead [] {} where
  symbols := rfl
  literals := rfl
  enclosing := nofun
  current := rfl

theorem HasRead.waiting {tokens : List Token} {parser : Parser} (hasRead : HasRead tokens parser)
    (expects : parser.expects ≠ .operator) : parser.current.Waiting := by
  obtain ⟨current, enclosing, stage⟩ := parser
  cases stage with
  | chain =>
    obtain rfl : current = {} := hasRead.current
    exact ⟨rfl, nofun⟩
  | operand => exact hasRead.current
  | operator => exact absurd rfl expects

theorem currentSymbols_of_ne {parser : Parser} (expects : parser.expects ≠ .operator) :
    parser.currentSymbols = parser.current.openSymbols := by
  obtain ⟨current, enclosing, stage⟩ := parser
  cases stage with
  | chain => rfl
  | operand => rfl
  | operator => exact absurd rfl expects

/-- Each step adds its token to what the parser has read. -/
theorem HasRead.step {tokens : List Token} {parser next : Parser} {token : Token}
    (hasRead : HasRead tokens parser) (reads : parser.Reads token next) :
    HasRead (tokens ++ [token]) next := by
  cases reads with
  | number lexeme symbol expects =>
    have waiting := hasRead.waiting expects
    have symbols := hasRead.symbols
    rw [currentSymbols_of_ne expects] at symbols
    refine ⟨?_, ?_, hasRead.enclosing, waiting.addOperand (by simp)⟩
    · simp only [currentSymbols]
      rw [waiting.symbols_addOperand, ← List.append_assoc, symbols]
      simp [symbol]
    · rw [Draft.literals_addOperand, ← List.append_assoc, hasRead.literals]
      simp [Token.literal?, symbol]
  | opening symbol expects =>
    -- the current chain waits outside, its symbols with the parenthesis after them
    have waiting := hasRead.waiting expects
    have symbols := hasRead.symbols
    rw [currentSymbols_of_ne expects] at symbols
    refine ⟨?_, ?_, List.forall_mem_cons.mpr ⟨waiting, hasRead.enclosing⟩, rfl⟩
    · rw [outerSymbols, symbols]
      simp [symbol, currentSymbols, Draft.openSymbols, Symbol.head]
    · rw [outerLiterals, hasRead.literals]
      simp [Token.literal?, symbol, Draft.chain, Chain.literals]
  | minus symbol expects =>
    obtain ⟨current, enclosing, stage⟩ := parser
    cases expects
    obtain rfl : current = {} := hasRead.current
    refine ⟨?_, ?_, hasRead.enclosing, rfl, List.forall_mem_nil _⟩
    · have symbols := hasRead.symbols
      simp only [currentSymbols, Draft.openSymbols, Symbol.head] at symbols ⊢
      simp_all
    · have literals := hasRead.literals
      simp_all [Token.literal?, Draft.chain, Chain.literals]
  | operator op symbol expects =>
    obtain ⟨current, enclosing, stage⟩ := parser
    cases expects
    have complete : current.Complete := hasRead.current
    have symbols : outerSymbols enclosing ++ Chain.symbols current.chain = _ := hasRead.symbols
    refine ⟨?_, ?_, hasRead.enclosing, complete.addOperator op⟩
    · simp only [currentSymbols]
      rw [Draft.openSymbols_addOperator, ← List.append_assoc, symbols]
      simp [symbol]
    · rw [List.filterMap_append, ← hasRead.literals, Draft.literals_addOperator]
      simp [Token.literal?, symbol]
  | closing outer rest symbol expects inside =>
    -- the current chain becomes an operand of the one around it
    obtain ⟨current, enclosing, stage⟩ := parser
    cases expects
    cases inside
    have complete : current.Complete := hasRead.current
    have waiting := hasRead.enclosing outer List.mem_cons_self
    have symbols := hasRead.symbols
    have literals := hasRead.literals
    simp only [outerSymbols, outerLiterals, currentSymbols] at symbols literals
    refine ⟨?_, ?_, fun draft member => hasRead.enclosing draft (List.mem_cons_of_mem _ member),
      waiting.addOperand ((Operand.wellFormed_group _).mpr complete.wellFormed)⟩
    · simp only [currentSymbols]
      rw [waiting.symbols_addOperand, List.map_append, ← symbols]
      simp [symbol]
    · rw [Draft.literals_addOperand, List.filterMap_append, ← literals]
      simp [Token.literal?, symbol]

theorem HasRead.run {tokens : List Token} {final : Parser}
    (run : tokens.foldlM Parser.step {} = .ok final) : HasRead tokens final :=
  Except.foldlM_invariant HasRead
    (fun _ _ _ _ hasRead stepped => hasRead.step (reads_of_step stepped))
    [] tokens {} final hasRead_nil run

end Parser

structure Token.Spells (tokens : List Token) (symbols : List Symbol)
    (literals : List (List Char × Nat)) : Prop where
  symbols : tokens.map (·.symbol) = symbols
  literals : tokens.filterMap literal? = literals

theorem Parser.spells_of_finish {tokens : List Token} {parser : Parser} {endPosition : Nat}
    {chain : Expression} (hasRead : HasRead tokens parser)
    (finished : parser.finish endPosition = .ok chain) :
    chain.WellFormed ∧ Token.Spells tokens chain.symbols chain.literals := by
  obtain ⟨current, enclosing, stage⟩ := parser
  cases stage with
  | chain => cases finished
  | operand => cases finished
  | operator =>
    -- a chain still open would be an unclosed parenthesis
    cases enclosing with
    | cons outer rest => cases finished
    | nil =>
      cases finished
      have complete : current.Complete := hasRead.current
      exact ⟨complete.wellFormed, hasRead.symbols.symm, hasRead.literals.symm⟩

/-! ## Completeness -/

def Symbol.lexeme? : Symbol → Option (List Char)
  | .number lexeme => some lexeme
  | _ => none

def Symbol.lexemes (symbols : List Symbol) : List (List Char) := symbols.filterMap lexeme?

theorem Token.Spells.lexemes {tokens : List Token} {symbols : List Symbol}
    {literals : List (List Char × Nat)} (spells : Spells tokens symbols literals) :
    literals.map Prod.fst = Symbol.lexemes symbols := by
  rw [← spells.symbols, ← spells.literals, Symbol.lexemes, List.map_filterMap,
    List.filterMap_map]
  congr 1
  funext token
  obtain ⟨symbol, position⟩ := token
  cases symbol <;> rfl

theorem Token.Spells.split {tokens : List Token} {first rest : List Symbol}
    {early late : List (List Char × Nat)} (spells : Spells tokens (first ++ rest) (early ++ late))
    (lexemes : early.map Prod.fst = Symbol.lexemes first) :
    ∃ before after, tokens = before ++ after ∧ Spells before first early ∧
      Spells after rest late := by
  obtain ⟨before, after, rfl, left, right⟩ := List.map_eq_append_iff.mp spells.symbols
  have literals := spells.literals
  rw [List.filterMap_append] at literals
  have own : Spells before first (before.filterMap literal?) := ⟨left, rfl⟩
  -- both sides list as many literals as `first` has lexemes
  have length : (before.filterMap literal?).length = early.length := by
    have same := congrArg List.length (own.lexemes.trans lexemes.symm)
    simpa using same
  obtain ⟨leftLiterals, rightLiterals⟩ := List.append_inj literals length
  exact ⟨before, after, rfl, ⟨left, leftLiterals⟩, ⟨right, rightLiterals⟩⟩

theorem Token.Spells.uncons {tokens : List Token} {symbol : Symbol} {rest : List Symbol}
    {literals : List (List Char × Nat)} (spells : Spells tokens (symbol :: rest) literals)
    (plain : symbol.lexeme? = none) :
    ∃ position after, tokens = ⟨symbol, position⟩ :: after ∧ Spells after rest literals := by
  obtain ⟨token, after, rfl, rfl, symbols⟩ := List.map_eq_cons_iff.mp spells.symbols
  refine ⟨token.position, after, rfl, symbols, ?_⟩
  have none : token.literal? = none := by
    obtain ⟨symbol, position⟩ := token
    cases symbol with
    | number lexeme => cases plain
    | _ => rfl
  rw [← spells.literals, List.filterMap_cons_none none]

theorem Symbol.lexemes_append (first rest : List Symbol) :
    lexemes (first ++ rest) = lexemes first ++ lexemes rest := List.filterMap_append

def Operand.seriesLiterals (pairs : List (Operator × Operand)) : List (List Char × Nat) :=
  pairs.flatMap fun pair => pair.2.literals

theorem Symbol.lexemes_series (pairs : List (Operator × Operand))
    (each : ∀ pair ∈ pairs, pair.2.literals.map Prod.fst = lexemes pair.2.symbols) :
    (Operand.seriesLiterals pairs).map Prod.fst = lexemes (series pairs) := by
  induction pairs with
  | nil => rfl
  | cons pair rest ih =>
    have remaining := ih fun other member => each other (List.mem_cons_of_mem pair member)
    have own := each pair List.mem_cons_self
    rw [Symbol.series_cons, Symbol.lexemes_append, ← remaining]
    simp only [Operand.seriesLiterals, List.flatMap_cons, List.map_append, own]
    rfl

theorem Chain.literals_cons (negated : Bool) (first : Operand) (rest : List Operand)
    (operators : List Operator) (enough : rest.length ≤ operators.length) :
    Chain.literals ⟨negated, first :: rest, operators⟩ =
      first.literals ++ Operand.seriesLiterals (operators.zip rest) := by
  have seconds := List.map_snd_zip enough
  rw [Chain.literals, List.flatMap_cons, Operand.seriesLiterals]
  conv => lhs; rw [← seconds]
  rw [List.flatMap_map]

theorem Chain.lexemes_of_operands (chain : Expression) (wellFormed : chain.WellFormed)
    (each : ∀ operand ∈ chain.operands,
      operand.literals.map Prod.fst = Symbol.lexemes operand.symbols) :
    chain.literals.map Prod.fst = Symbol.lexemes chain.symbols := by
  obtain ⟨negated, first, rest, operators, rfl, length⟩ := wellFormed.exists_first
  have enough := Nat.le_of_eq length
  have head : Symbol.lexemes (Symbol.head negated) = [] := by cases negated <;> rfl
  rw [Chain.literals_cons _ _ _ _ enough, Chain.symbols_cons _ _ _ _ enough, List.map_append,
    Symbol.lexemes_append, Symbol.lexemes_append, head, each first List.mem_cons_self,
    Symbol.lexemes_series _ fun pair member =>
      each pair.2 (List.mem_cons_of_mem _ (List.of_mem_zip member).2)]
  rfl

theorem Operand.lexemes_eq (operand : Operand) (wellFormed : operand.WellFormed) :
    operand.literals.map Prod.fst = Symbol.lexemes operand.symbols := by
  induction operand, wellFormed using Operand.WellFormed.induct with
  | literal lexeme position => rfl
  | group chain wellFormed ih =>
    rw [literals_group, symbols_group, Symbol.lexemes_append,
      chain.lexemes_of_operands wellFormed ih]
    exact (List.append_nil _).symm

theorem Chain.lexemes_eq (chain : Expression) (wellFormed : chain.WellFormed) :
    chain.literals.map Prod.fst = Symbol.lexemes chain.symbols :=
  chain.lexemes_of_operands wellFormed fun member inside =>
    member.lexemes_eq (wellFormed.operand inside)

namespace Parser

/-- From any state that waits for an operand, the tokens of this one are read as it. -/
def TakesIn (operand : Operand) : Prop :=
  ∀ (tokens : List Token) (parser : Parser),
    Token.Spells tokens operand.symbols operand.literals → parser.expects ≠ .operator →
    tokens.foldlM step parser =
      .ok { parser with current := parser.current.addOperand operand, expects := .operator }

theorem run_cons {parser next : Parser} {token : Token} {rest : List Token}
    (reads : parser.Reads token next) :
    (token :: rest).foldlM step parser = rest.foldlM step next := by
  rw [List.foldlM_cons, reads.step_eq]
  rfl

theorem run_append {tokens rest : List Token} {parser next : Parser}
    (run : tokens.foldlM step parser = .ok next) :
    (tokens ++ rest).foldlM step parser = rest.foldlM step next := by
  rw [List.foldlM_append, run]
  rfl

theorem run_series (pairs : List (Operator × Operand)) (takes : ∀ pair ∈ pairs, TakesIn pair.2)
    (wellFormed : ∀ pair ∈ pairs, pair.2.WellFormed) (tokens : List Token) (draft : Draft)
    (enclosing : List Draft)
    (spells : Token.Spells tokens (Symbol.series pairs) (Operand.seriesLiterals pairs)) :
    tokens.foldlM step ⟨draft, enclosing, .operator⟩ =
      .ok ⟨⟨draft.negated, (pairs.map Prod.snd).reverse ++ draft.operands,
        (pairs.map Prod.fst).reverse ++ draft.operators⟩, enclosing, .operator⟩ := by
  induction pairs generalizing tokens draft with
  | nil =>
    obtain rfl : tokens = [] := List.map_eq_nil_iff.mp spells.symbols
    rfl
  | cons pair rest ih =>
    obtain ⟨op, operand⟩ := pair
    -- the operator, the operand behind it, then the rest of the series
    obtain ⟨position, operands, rfl, operandsSpell⟩ := spells.uncons rfl
    obtain ⟨own, later, rfl, ownSpells, laterSpells⟩ :=
      operandsSpell.split (operand.lexemes_eq (wellFormed (op, operand) List.mem_cons_self))
    have taken := takes (op, operand) List.mem_cons_self own
      ⟨draft.addOperator op, enclosing, .operand⟩ ownSpells nofun
    rw [run_cons (.operator op rfl rfl), run_append taken,
      ih (fun other member => takes other (List.mem_cons_of_mem _ member))
        (fun other member => wellFormed other (List.mem_cons_of_mem _ member)) later _ laterSpells]
    simp [Draft.addOperator, Draft.addOperand]

def draftOf (chain : Expression) : Draft :=
  ⟨chain.negated, chain.operands.reverse, chain.operators.reverse⟩

theorem run_chain (chain : Expression) (wellFormed : chain.WellFormed)
    (takes : ∀ operand ∈ chain.operands, TakesIn operand) (tokens : List Token)
    (enclosing : List Draft) (spells : Token.Spells tokens chain.symbols chain.literals) :
    tokens.foldlM step ⟨{}, enclosing, .chain⟩ = .ok ⟨draftOf chain, enclosing, .operator⟩ := by
  obtain ⟨negated, first, rest, operators, rfl, length⟩ := wellFormed.exists_first
  have enough := Nat.le_of_eq length
  rw [Chain.symbols_cons _ _ _ _ enough, Chain.literals_cons _ _ _ _ enough] at spells
  obtain ⟨before, later, rfl, beforeSpells, laterSpells⟩ := spells.split (by
    rw [Symbol.lexemes_append, ← first.lexemes_eq (wellFormed.operand List.mem_cons_self)]
    cases negated <;> rfl)
  -- the head minus and the first operand, from which the others go on
  have start : before.foldlM step ⟨{}, enclosing, .chain⟩ =
      .ok ⟨⟨negated, [first], []⟩, enclosing, .operator⟩ := by
    cases negated with
    | false => exact takes first List.mem_cons_self before _ beforeSpells nofun
    | true =>
      obtain ⟨position, own, rfl, ownSpells⟩ := beforeSpells.uncons rfl
      rw [run_cons (.minus rfl rfl)]
      exact takes first List.mem_cons_self own _ ownSpells nofun
  have later_mem {pair : Operator × Operand} (member : pair ∈ operators.zip rest) :
      pair.2 ∈ first :: rest := List.mem_cons_of_mem first (List.of_mem_zip member).2
  have series := run_series (operators.zip rest)
    (fun pair member => takes pair.2 (later_mem member))
    (fun pair member => wellFormed.operand (later_mem member)) later ⟨negated, [first], []⟩
    enclosing laterSpells
  rw [List.map_snd_zip enough, List.map_fst_zip (Nat.le_of_eq length.symm)] at series
  rw [run_append start, series]
  simp [draftOf]

end Parser

theorem Operand.takesIn (operand : Operand) (wellFormed : operand.WellFormed) :
    Parser.TakesIn operand := by
  induction operand, wellFormed using Operand.WellFormed.induct with
  | literal lexeme position =>
    intro tokens parser spells expects
    obtain ⟨token, rfl, symbol⟩ := List.map_eq_singleton_iff.mp spells.symbols
    have literals := spells.literals
    obtain rfl : token.position = position := by simpa [Token.literal?, symbol] using literals
    exact Parser.run_cons (.number lexeme symbol expects)
  | group chain wellFormed ih =>
    intro tokens parser spells expects
    rw [symbols_group, literals_group, List.cons_append] at spells
    -- the opening parenthesis, what is inside, the closing one, and nothing more
    obtain ⟨position, later, rfl, remaining⟩ := spells.uncons rfl
    rw [← List.append_nil chain.literals] at remaining
    obtain ⟨inner, stop, rfl, inside, closing⟩ := remaining.split (chain.lexemes_eq wellFormed)
    obtain ⟨position, beyond, rfl, nothing⟩ := closing.uncons rfl
    obtain rfl : beyond = [] := List.map_eq_nil_iff.mp nothing.symbols
    have read := Parser.run_chain chain wellFormed ih inner (parser.current :: parser.enclosing)
      inside
    rw [Parser.run_cons (.opening rfl expects), Parser.run_append read,
      Parser.run_cons (.closing parser.current parser.enclosing rfl rfl rfl)]
    simp [Parser.draftOf, Draft.chain, pure, Except.pure]

/-! ## What the parser accepts -/

/-- The parser's answers are the well-formed trees that the tokens spell. -/
theorem Chain.parse_ok_iff (maxDepth endPosition : Nat) (tokens : List Token)
    (chain : Expression) :
    Chain.parse maxDepth endPosition tokens = .ok chain ↔
      chain.WellFormed ∧ Token.Spells tokens chain.symbols chain.literals ∧
        chain.depth ≤ maxDepth := by
  unfold Chain.parse
  rw [Except.bind_eq_ok_iff]
  constructor
  · rintro ⟨_, checked, parsed⟩
    obtain ⟨parser, run, finished⟩ := Except.bind_eq_ok_iff.mp parsed
    obtain ⟨wellFormed, spells⟩ := Parser.spells_of_finish (Parser.HasRead.run run) finished
    have nests := (Nesting.check_ok_iff tokens).mp checked
    rw [spells.symbols, chain.nestsWithin_iff wellFormed] at nests
    exact ⟨wellFormed, spells, nests.2⟩
  · rintro ⟨wellFormed, spells, depth⟩
    have balanced := (chain.isSentence_symbols wellFormed).balanced
    refine ⟨(), (Nesting.check_ok_iff tokens).mpr ?_, ?_⟩
    · rw [spells.symbols]
      exact ⟨balanced, (chain.nestsWithin_iff wellFormed maxDepth).mpr depth⟩
    · have run := Parser.run_chain chain wellFormed
        (fun member inside => member.takesIn (wellFormed.operand inside)) tokens [] spells
      refine Except.bind_eq_ok_iff.mpr ⟨_, run, ?_⟩
      simp [Parser.finish, Parser.draftOf, Draft.chain]

end ExactCalc
