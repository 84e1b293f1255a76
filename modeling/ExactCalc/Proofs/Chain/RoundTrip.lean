import ExactCalc.Proofs.Chain.Sentences
import ExactCalc.Proofs.Chain.Unplaced
import ExactCalc.Proofs.Token.Scanning

/-! Writing a chain out and reading it are inverse in both directions: an accepted text is what its
tree is written with, and a tree is read back from its text, with each literal at the byte where
it stands. -/

set_option autoImplicit false

namespace ExactCalc

/-! ## Writing goes through -/

@[simp] theorem Operand.isComplete_literal (lexeme : List Char) (position : Nat) :
    (Operand.literal lexeme position).isComplete = true := rfl

@[simp] theorem Operand.isComplete_group (chain : Expression) :
    (Operand.group chain).isComplete = chain.isComplete := by
  rw [Operand.isComplete, Operand.fold_group]
  rfl

theorem Chain.isComplete_of_operands (chain : Expression) (wellFormed : chain.WellFormed)
    (each : ∀ operand ∈ chain.operands, operand.isComplete = true) : chain.isComplete = true := by
  have length := ((Chain.wellFormed_iff chain).mp wellFormed).1
  simpa [Chain.isComplete, Chain.isCompleteLevel, Chain.map, length] using each

theorem Operand.isComplete_of_wellFormed (operand : Operand) (wellFormed : operand.WellFormed) :
    operand.isComplete = true := by
  induction operand, wellFormed using Operand.WellFormed.induct with
  | literal lexeme position => rfl
  | group chain wellFormed ih =>
    rw [isComplete_group]
    exact chain.isComplete_of_operands wellFormed ih

theorem Chain.print?_eq (chain : Expression) (wellFormed : chain.WellFormed) :
    chain.print? = some (chain.symbols.flatMap Symbol.text) :=
  if_pos (chain.isComplete_of_operands wellFormed fun member inside =>
    member.isComplete_of_wellFormed (wellFormed.operand inside))

/-! ## Literals never touch -/

theorem Phrase.Derives.apart {phrase : Phrase} {symbols : List Symbol}
    (derives : phrase.Derives symbols) : symbols.IsChain Token.Apart := by
  -- an operator or a parenthesis is apart from whatever stands beside it
  have before {symbol : Symbol} {rest : List Symbol} (plain : ∀ next, Token.Apart symbol next)
      (chain : rest.IsChain Token.Apart) : (symbol :: rest).IsChain Token.Apart :=
    List.isChain_cons.mpr ⟨fun next _ => plain next, chain⟩
  have after {first rest : List Symbol} (left : first.IsChain Token.Apart)
      (right : rest.IsChain Token.Apart)
      (plain : ∀ next ∈ rest.head?, ∀ last, Token.Apart last next) :
      (first ++ rest).IsChain Token.Apart :=
    List.isChain_append.mpr ⟨left, right, fun last _ next member => plain next member last⟩
  induction derives with
  | number lexeme => exact .singleton _
  | group _ ih =>
    refine after (before (fun _ => trivial) ih) (.singleton _) ?_
    rintro _ ⟨⟩ last
    cases last <;> trivial
  | last _ ih => exact ih
  | more op _ _ ihOperand ihRest =>
    refine after ihOperand (before (fun _ => trivial) ihRest) ?_
    rintro _ ⟨⟩ last
    cases last <;> trivial
  | plain _ ih => exact ih
  | negated _ ih => exact before (fun _ => trivial) ih

/-! ## Literals stand at their bytes -/

theorem Symbol.mem_lexemes {lexeme : List Char} {symbols : List Symbol} :
    lexeme ∈ lexemes symbols ↔ .number lexeme ∈ symbols := by
  simp only [lexemes, List.mem_filterMap]
  constructor
  · rintro ⟨symbol, member, same⟩
    cases symbol with
    | number other =>
      cases same
      exact member
    | _ => cases same
  · exact fun member => ⟨_, member, rfl⟩

/-- The literal after `before` has the length of what is written before it as its position. -/
theorem Token.literal_of_placeFrom (start : Nat) (before after : List Symbol)
    (lexeme : List Char) :
    ((placeFrom start (before ++ .number lexeme :: after)).filterMap literal?)[
        (Symbol.lexemes before).length]? =
      some (lexeme, start + byteLength (before.flatMap Symbol.text)) := by
  have spells : Spells (placeFrom start before) before
      ((placeFrom start before).filterMap literal?) := ⟨map_symbol_placeFrom start before, rfl⟩
  have length := congrArg List.length spells.lexemes
  rw [List.length_map] at length
  rw [placeFrom_append, List.filterMap_append, ← length,
    List.getElem?_append_right (Nat.le_refl _), Nat.sub_self]
  rfl

/-! ## The round trip -/

theorem Chain.parse_print (chain : Expression) (wellFormed : chain.WellFormed)
    (maxDepth endPosition : Nat) (depth : chain.depth ≤ maxDepth) :
    ∃ read, Chain.parse maxDepth endPosition (Token.placeFrom 0 chain.symbols) = .ok read ∧
      read.unplaced = chain.unplaced ∧
      read.literals = (Token.placeFrom 0 chain.symbols).filterMap Token.literal? := by
  have sentence := chain.isSentence_symbols wellFormed
  have symbols := Token.map_symbol_placeFrom 0 chain.symbols
  obtain ⟨read, readWellFormed, spells⟩ := sentence.hasTree _ symbols
  have same : read.symbols = chain.symbols := spells.symbols.symm.trans symbols
  have nests := (chain.nestsWithin_iff wellFormed maxDepth).mpr depth
  rw [← same, read.nestsWithin_iff readWellFormed] at nests
  exact ⟨read, (Chain.parse_ok_iff _ _ _ _).mpr ⟨readWellFormed, spells, nests⟩,
    Chain.unplaced_eq_of_symbols readWellFormed wellFormed same, spells.literals.symm⟩

/-- An accepted text is the writing of its tree. A tree whose literals are runs of digits and
points is read back from its writing, with each literal at the byte where it stands. -/
theorem Chain.print_parse_inverse :
    (∀ (text : List Char) (tokens : List Token) (maxDepth endPosition : Nat)
      (chain : Expression), Token.scan text = .ok tokens →
      Chain.parse maxDepth endPosition tokens = .ok chain → chain.print? = some text) ∧
    ∀ (chain : Expression) (maxDepth endPosition : Nat), chain.WellFormed →
      (∀ literal ∈ chain.literals, Token.IsLexeme literal.1) → chain.depth ≤ maxDepth →
      ∃ text tokens read, chain.print? = some text ∧ Token.scan text = .ok tokens ∧
        Chain.parse maxDepth endPosition tokens = .ok read ∧ read.unplaced = chain.unplaced ∧
        ∀ before lexeme after, chain.symbols = before ++ .number lexeme :: after →
          read.literals[(Symbol.lexemes before).length]? =
            some (lexeme, byteLength (before.flatMap Symbol.text)) := by
  constructor
  · intro text tokens maxDepth endPosition chain scanned parsed
    obtain ⟨wellFormed, spells, _⟩ := (Chain.parse_ok_iff _ _ _ _).mp parsed
    rw [chain.print?_eq wellFormed, ← spells.symbols, Token.flatMap_text_of_scan scanned]
  · intro chain maxDepth endPosition wellFormed lexemes depth
    have sentence := chain.isSentence_symbols wellFormed
    have runs (lexeme : List Char) (member : .number lexeme ∈ chain.symbols) :
        Token.IsLexeme lexeme := by
      rw [← Symbol.mem_lexemes, ← chain.lexemes_eq wellFormed] at member
      obtain ⟨literal, inside, rfl⟩ := List.mem_map.mp member
      exact lexemes literal inside
    obtain ⟨read, parsed, unplaced, literals⟩ :=
      chain.parse_print wellFormed maxDepth endPosition depth
    refine ⟨_, _, read, chain.print?_eq wellFormed,
      Token.scan_flatMap_text chain.symbols runs sentence.apart, parsed, unplaced, ?_⟩
    intro before lexeme after same
    rw [literals, same, Token.literal_of_placeFrom, Nat.zero_add]

def Chain.quotient (first second : Nat) : Expression :=
  ⟨false, [.group ⟨false, [.literal ['1', '0'] first], []⟩, .literal ['.', '5'] second], [.div]⟩

theorem Chain.print_parse_quotient :
    (∃ tokens, Token.scan ['(', '1', '0', ')', '/', '.', '5'] = .ok tokens ∧
      Chain.parse 1 7 tokens = .ok (quotient 1 5) ∧
      (quotient 1 5).print? = some ['(', '1', '0', ')', '/', '.', '5']) ∧
    (quotient 6 0).WellFormed ∧ (∀ literal ∈ (quotient 6 0).literals, Token.IsLexeme literal.1) ∧
      (quotient 6 0).depth ≤ 1 ∧
      ∃ text tokens read, (quotient 6 0).print? = some text ∧ Token.scan text = .ok tokens ∧
        Chain.parse 1 7 tokens = .ok read ∧ read.unplaced = (quotient 6 0).unplaced ∧
        read.literals[1]? = some (['.', '5'], 5) := by
  obtain ⟨forward, backward⟩ := Chain.print_parse_inverse
  have scanned : Token.scan ['(', '1', '0', ')', '/', '.', '5'] =
      .ok [⟨.opening, 0⟩, ⟨.number ['1', '0'], 1⟩, ⟨.closing, 3⟩, ⟨.operator .div, 4⟩,
        ⟨.number ['.', '5'], 5⟩] := rfl
  have wellFormed : (quotient 6 0).WellFormed := by simp [quotient, Chain.wellFormed_iff]
  have lexemes : ∀ literal ∈ (quotient 6 0).literals, Token.IsLexeme literal.1 := by decide
  have depth : (quotient 6 0).depth ≤ 1 := by decide
  obtain ⟨text, tokens, read, printed, rescanned, reparsed, unplaced, places⟩ :=
    backward (quotient 6 0) 1 7 wellFormed lexemes depth
  exact ⟨⟨_, scanned, rfl, forward _ _ 1 7 _ scanned rfl⟩, wellFormed, lexemes, depth, text, tokens,
    read, printed, rescanned, reparsed, unplaced,
    places [.opening, .number ['1', '0'], .closing, .operator .div] ['.', '5'] [] rfl⟩

end ExactCalc
