import ExactCalc.Proofs.Chain.Parsing
import Mathlib.Data.List.Chain

/-! Which tokens the parser accepts, said by the grammar alone, and which tree it gives them.

The tree is the only one among all those that can be written out, levels without any operand
included: in a sentence no parenthesis closes right after another symbol than a number or a
closing parenthesis, so a level without operands cannot occur in it.
-/

set_option autoImplicit false

namespace ExactCalc

/-! ## Trees that can be written out -/

def Chain.FittedLevel (level : Chain Prop) : Prop :=
  level.operators.length = level.operands.length - 1 ∧ ∀ operand ∈ level.operands, operand

def Operand.Fitted : Operand → Prop := fold (fun _ _ => True) Chain.FittedLevel

/-- At every level an operator between each two operands and no other. -/
def Chain.Fitted (chain : Expression) : Prop := (chain.map Operand.Fitted).FittedLevel

@[simp] theorem Operand.fitted_group (chain : Expression) :
    (Operand.group chain).Fitted ↔ chain.Fitted := by
  rw [Operand.Fitted, Operand.fold_group]
  rfl

theorem Chain.fitted_iff (chain : Expression) :
    chain.Fitted ↔ chain.operators.length = chain.operands.length - 1 ∧
      ∀ operand ∈ chain.operands, operand.Fitted := by
  simp only [Chain.Fitted, Chain.FittedLevel, Chain.map, List.length_map, List.forall_mem_map]

/-! ## What stands before a closing parenthesis -/

namespace Symbol

def EndsOperand : Symbol → Prop
  | .number _ | .closing => True
  | .operator _ | .opening => False

def MayPrecede (earlier later : Symbol) : Prop := later = .closing → earlier.EndsOperand

/-- Symbols that end like an operand, with nothing but the end of an operand before each closing
parenthesis. -/
structure Closes (symbols : List Symbol) : Prop where
  chain : symbols.IsChain MayPrecede
  head : ∀ symbol ∈ symbols.head?, symbol ≠ .closing
  last : ∃ symbol ∈ symbols.getLast?, symbol.EndsOperand

theorem Closes.ne_nil {symbols : List Symbol} (closes : Closes symbols) : symbols ≠ [] := by
  rintro rfl
  obtain ⟨_, member, _⟩ := closes.last
  cases member

theorem Closes.cons {symbols : List Symbol} (closes : Closes symbols) {symbol : Symbol}
    (start : symbol ≠ .closing) : Closes (symbol :: symbols) where
  chain := List.isChain_cons.mpr
    ⟨fun next member same => absurd same (closes.head next member), closes.chain⟩
  head := by simpa using start
  last := by
    obtain ⟨last, member, ends⟩ := closes.last
    refine ⟨last, ?_, ends⟩
    rw [List.getLast?_cons_of_ne_nil closes.ne_nil]
    exact member

theorem Closes.append {first rest : List Symbol} (left : Closes first) (right : Closes rest) :
    Closes (first ++ rest) where
  chain := List.isChain_append.mpr ⟨left.chain, right.chain, fun _ _ next member same =>
    absurd same (right.head next member)⟩
  head := by
    rw [List.head?_append_of_ne_nil _ left.ne_nil]
    exact left.head
  last := by
    rw [List.getLast?_append_of_ne_nil _ right.ne_nil]
    exact right.last

theorem Closes.enclose {inner : List Symbol} (closes : Closes inner) :
    Closes (.opening :: inner ++ [.closing]) where
  chain := by
    have opened : Closes (.opening :: inner) := closes.cons nofun
    refine List.isChain_append.mpr ⟨opened.chain, .singleton _, fun last member _ _ _ => ?_⟩
    obtain ⟨symbol, own, ends⟩ := opened.last
    rw [Option.mem_def] at member own
    rw [member] at own
    cases own
    exact ends
  head := by simp
  last := ⟨.closing, List.getLast?_concat, trivial⟩

end Symbol

theorem Phrase.Derives.closes {phrase : Phrase} {symbols : List Symbol}
    (derives : phrase.Derives symbols) : Symbol.Closes symbols := by
  induction derives with
  | number lexeme => exact ⟨.singleton _, by simp, .number lexeme, by simp, trivial⟩
  | group _ ih => exact ih.enclose
  | last _ ih => exact ih
  | more op _ _ ihOperand ihRest => exact ihOperand.append (ihRest.cons nofun)
  | plain _ ih => exact ih
  | negated _ ih => exact ih.cons nofun

theorem Symbol.infix_series {pairs : List (Operator × Operand)} {pair : Operator × Operand}
    (member : pair ∈ pairs) : pair.2.symbols <:+: series pairs := by
  obtain ⟨before, after, rfl⟩ := List.append_of_mem member
  refine ⟨series before ++ [.operator pair.1], series after, ?_⟩
  simp [series]

theorem Chain.infix_symbols (chain : Expression)
    (length : chain.operands.length = chain.operators.length + 1) (operand : Operand)
    (member : operand ∈ chain.operands) : operand.symbols <:+: chain.symbols := by
  obtain ⟨negated, operands, operators⟩ := chain
  cases operands with
  | nil => cases member
  | cons first rest =>
    have same : rest.length = operators.length := by simpa using length
    rw [Chain.symbols_cons _ _ _ _ (Nat.le_of_eq same)]
    rcases List.mem_cons.mp member with rfl | later
    · exact List.infix_append _ _ _
    · rw [← List.map_snd_zip (Nat.le_of_eq same)] at later
      obtain ⟨pair, inside, rfl⟩ := List.mem_map.mp later
      exact (Symbol.infix_series inside).trans (List.suffix_append _ _).isInfix

theorem Chain.length_of_fitted (chain : Expression) (fitted : chain.Fitted)
    (some : chain.symbols ≠ Symbol.head chain.negated) :
    chain.operands.length = chain.operators.length + 1 := by
  obtain ⟨negated, operands, operators⟩ := chain
  have length := ((Chain.fitted_iff _).mp fitted).1
  cases operands with
  | nil => exact absurd rfl some
  | cons first rest =>
    simp only [List.length_cons] at length ⊢
    omega

theorem Operand.wellFormed_of_isChain (operand : Operand) (fitted : operand.Fitted)
    (follows : operand.symbols.IsChain Symbol.MayPrecede) : operand.WellFormed := by
  induction operand with
  | literal lexeme position => trivial
  | group chain ih =>
    rw [fitted_group] at fitted
    rw [symbols_group] at follows
    have members := ((Chain.fitted_iff chain).mp fitted).2
    have length := chain.length_of_fitted fitted fun empty => by
      -- nothing but an opening parenthesis or a minus before the closing one
      rw [empty] at follows
      cases negated : chain.negated <;>
        simp [negated, Symbol.head, Symbol.MayPrecede, Symbol.EndsOperand] at follows
    have inside := (List.isChain_append.mp follows).1.tail
    refine (wellFormed_group chain).mpr ((Chain.wellFormed_iff chain).mpr ⟨length, ?_⟩)
    intro member within
    have own := List.IsChain.infix inside (chain.infix_symbols length member within)
    exact ih member within (members member within) own

/-- A tree that is written as a sentence has operands at every level. -/
theorem Chain.wellFormed_of_isSentence (chain : Expression) (fitted : chain.Fitted)
    (sentence : IsSentence chain.symbols) : chain.WellFormed := by
  have closes := sentence.closes
  have members := ((Chain.fitted_iff chain).mp fitted).2
  have length := chain.length_of_fitted fitted fun empty => by
    obtain ⟨last, member, ends⟩ := closes.last
    rw [empty] at member
    cases negated : chain.negated <;> simp [negated, Symbol.head] at member
    rw [← member] at ends
    exact ends
  refine (Chain.wellFormed_iff chain).mpr ⟨length, fun member within => ?_⟩
  have own := List.IsChain.infix closes.chain (chain.infix_symbols length member within)
  exact member.wellFormed_of_isChain (members member within) own

/-! ## Sentences have trees -/

def Phrase.HasTree (tokens : List Token) : Phrase → Prop
  | .operand => ∃ operand : Operand, operand.WellFormed ∧
      Token.Spells tokens operand.symbols operand.literals
  | .series => ∃ (first : Operand) (pairs : List (Operator × Operand)), first.WellFormed ∧
      (∀ pair ∈ pairs, pair.2.WellFormed) ∧
      Token.Spells tokens (first.symbols ++ Symbol.series pairs)
        (first.literals ++ Operand.seriesLiterals pairs)
  | .chain => ∃ chain : Expression, chain.WellFormed ∧
      Token.Spells tokens chain.symbols chain.literals

theorem Token.Spells.append {before after : List Token} {first rest : List Symbol}
    {early late : List (List Char × Nat)} (left : Spells before first early)
    (right : Spells after rest late) :
    Spells (before ++ after) (first ++ rest) (early ++ late) where
  symbols := by rw [List.map_append, left.symbols, right.symbols]
  literals := by rw [List.filterMap_append, left.literals, right.literals]

theorem Token.spells_singleton (token : Token) (plain : token.symbol.lexeme? = none) :
    Spells [token] [token.symbol] [] := by
  obtain ⟨symbol, position⟩ := token
  cases symbol with
  | number lexeme => cases plain
  | _ => exact ⟨rfl, rfl⟩

theorem Phrase.chain_hasTree (negated : Bool) (first : Operand)
    (pairs : List (Operator × Operand)) (wellFormed : first.WellFormed)
    (pairsWellFormed : ∀ pair ∈ pairs, pair.2.WellFormed) {tokens : List Token}
    (spells : Token.Spells tokens (Symbol.head negated ++ (first.symbols ++ Symbol.series pairs))
      (first.literals ++ Operand.seriesLiterals pairs)) : Phrase.chain.HasTree tokens := by
  refine ⟨⟨negated, first :: pairs.map Prod.snd, pairs.map Prod.fst⟩, ?_, ?_⟩
  · refine (Chain.wellFormed_iff _).mpr ⟨by simp, List.forall_mem_cons.mpr ⟨wellFormed, ?_⟩⟩
    exact List.forall_mem_map.mpr pairsWellFormed
  · have unzipped : (pairs.map Prod.fst).zip (pairs.map Prod.snd) = pairs :=
      (List.zip_of_prod rfl rfl).symm
    rw [Chain.symbols_cons _ _ _ _ (by simp), Chain.literals_cons _ _ _ _ (by simp), unzipped,
      List.append_assoc]
    exact spells

theorem Phrase.Derives.hasTree {phrase : Phrase} {symbols : List Symbol}
    (derives : phrase.Derives symbols) (tokens : List Token)
    (same : tokens.map (·.symbol) = symbols) : phrase.HasTree tokens := by
  induction derives generalizing tokens with
  | number lexeme =>
    obtain ⟨token, rfl, symbol⟩ := List.map_eq_singleton_iff.mp same
    refine ⟨.literal lexeme token.position, trivial, by simp [symbol], ?_⟩
    simp [Token.literal?, symbol]
  | group _ ih =>
    obtain ⟨before, stop, rfl, opened, closed⟩ := List.map_eq_append_iff.mp same
    obtain ⟨start, inner, rfl, opening, inside⟩ := List.map_eq_cons_iff.mp opened
    obtain ⟨finish, rfl, closing⟩ := List.map_eq_singleton_iff.mp closed
    obtain ⟨chain, wellFormed, spells⟩ := ih inner inside
    have left := Token.spells_singleton start (by rw [opening]; rfl)
    have right := Token.spells_singleton finish (by rw [closing]; rfl)
    refine ⟨.group chain, (Operand.wellFormed_group chain).mpr wellFormed, ?_⟩
    have whole := (left.append spells).append right
    rw [opening, closing] at whole
    simpa using whole
  | last _ ih =>
    obtain ⟨operand, wellFormed, spells⟩ := ih tokens same
    exact ⟨operand, [], wellFormed, List.forall_mem_nil _,
      by simpa [Operand.seriesLiterals] using spells⟩
  | more op _ _ ihOperand ihRest =>
    obtain ⟨before, later, rfl, own, rest⟩ := List.map_eq_append_iff.mp same
    obtain ⟨sign, after, rfl, symbol, rest⟩ := List.map_eq_cons_iff.mp rest
    obtain ⟨operand, wellFormed, spells⟩ := ihOperand before own
    obtain ⟨next, pairs, nextWellFormed, pairsWellFormed, restSpells⟩ := ihRest after rest
    refine ⟨operand, (op, next) :: pairs, wellFormed,
      List.forall_mem_cons.mpr ⟨nextWellFormed, pairsWellFormed⟩, ?_⟩
    have middle := Token.spells_singleton sign (by rw [symbol]; rfl)
    have whole := spells.append (middle.append restSpells)
    rw [symbol] at whole
    simpa [Operand.seriesLiterals] using whole
  | plain _ ih =>
    obtain ⟨first, pairs, wellFormed, pairsWellFormed, spells⟩ := ih tokens same
    exact Phrase.chain_hasTree false first pairs wellFormed pairsWellFormed spells
  | negated _ ih =>
    obtain ⟨sign, after, rfl, symbol, rest⟩ := List.map_eq_cons_iff.mp same
    obtain ⟨first, pairs, wellFormed, pairsWellFormed, spells⟩ := ih after rest
    have minus := Token.spells_singleton sign (by rw [symbol]; rfl)
    have whole := minus.append spells
    rw [symbol] at whole
    exact Phrase.chain_hasTree true first pairs wellFormed pairsWellFormed whole

/-! ## Acceptance -/

/-- The parser accepts the sentences that nest within the limit. Its tree is the only one that the
tokens spell, among all trees with an operator between each two operands and no other. -/
theorem Chain.parse_accepts_sentences (maxDepth endPosition : Nat) (tokens : List Token) :
    ((∃ chain, Chain.parse maxDepth endPosition tokens = .ok chain) ↔
      IsSentence (tokens.map (·.symbol)) ∧
        Symbol.NestsWithin maxDepth (tokens.map (·.symbol))) ∧
    ∀ chain, Chain.parse maxDepth endPosition tokens = .ok chain →
      chain.WellFormed ∧ Token.Spells tokens chain.symbols chain.literals ∧
        ∀ other : Expression, other.Fitted →
          Token.Spells tokens other.symbols other.literals → other = chain := by
  have sentenceOf (chain : Expression)
      (parsed : Chain.parse maxDepth endPosition tokens = .ok chain) :
      IsSentence (tokens.map (·.symbol)) ∧
        Symbol.NestsWithin maxDepth (tokens.map (·.symbol)) := by
    obtain ⟨wellFormed, spells, depth⟩ := (Chain.parse_ok_iff _ _ _ _).mp parsed
    rw [spells.symbols]
    exact ⟨chain.isSentence_symbols wellFormed, (chain.nestsWithin_iff wellFormed _).mpr depth⟩
  refine ⟨⟨fun ⟨chain, parsed⟩ => sentenceOf chain parsed, ?_⟩, ?_⟩
  · rintro ⟨sentence, nests⟩
    obtain ⟨chain, wellFormed, spells⟩ := sentence.hasTree tokens rfl
    rw [spells.symbols, chain.nestsWithin_iff wellFormed] at nests
    exact ⟨chain, (Chain.parse_ok_iff _ _ _ _).mpr ⟨wellFormed, spells, nests⟩⟩
  · intro chain parsed
    obtain ⟨wellFormed, spells, depth⟩ := (Chain.parse_ok_iff _ _ _ _).mp parsed
    refine ⟨wellFormed, spells, fun other fitted otherSpells => ?_⟩
    -- the other tree is written as the same sentence, so the parser answers with it as well
    obtain ⟨sentence, nests⟩ := sentenceOf chain parsed
    rw [otherSpells.symbols] at sentence nests
    have otherWellFormed := other.wellFormed_of_isSentence fitted sentence
    have depth := (other.nestsWithin_iff otherWellFormed _).mp nests
    have otherParsed := (Chain.parse_ok_iff maxDepth endPosition tokens other).mpr
      ⟨otherWellFormed, otherSpells, depth⟩
    exact Except.ok.inj (otherParsed.symm.trans parsed)

def Chain.negatedGroupTokens : List Token :=
  [⟨.operator .sub, 9⟩, ⟨.opening, 0⟩, ⟨.number ['3'], 7⟩, ⟨.operator .add, 7⟩, ⟨.number ['4'], 5⟩,
    ⟨.closing, 1⟩, ⟨.operator .mul, 1⟩, ⟨.number ['2'], 4⟩]

def Chain.negatedGroup : Expression :=
  ⟨true, [.group ⟨false, [.literal ['3'] 7, .literal ['4'] 5], [.add]⟩, .literal ['2'] 4], [.mul]⟩

theorem Chain.parse_accepts_negatedGroup :
    Chain.parse 1 0 negatedGroupTokens = .ok negatedGroup ∧
      IsSentence (negatedGroupTokens.map (·.symbol)) ∧
      Symbol.NestsWithin 1 (negatedGroupTokens.map (·.symbol)) ∧
      ∀ other : Expression, other.Fitted →
        Token.Spells negatedGroupTokens other.symbols other.literals → other = negatedGroup := by
  have parsed : Chain.parse 1 0 negatedGroupTokens = .ok negatedGroup := rfl
  obtain ⟨accepts, unique⟩ := Chain.parse_accepts_sentences 1 0 negatedGroupTokens
  obtain ⟨sentence, nests⟩ := accepts.mp ⟨negatedGroup, parsed⟩
  exact ⟨parsed, sentence, nests, (unique negatedGroup parsed).2.2⟩

end ExactCalc
