import ExactCalc.Chain.Parser
import ExactCalc.Proofs.Refusal
import ExactCalc.Proofs.Token.Scanning

/-! Tokens of which only the digits and the places change.

Neither the check of parentheses nor the parser looks into a literal, and neither looks at a
position except to report it. So on two lists of tokens with the same symbols up to what their
literals say, both go through the same states, and if they stop, they stop at the same token and for
the same reason.
-/

set_option autoImplicit false

namespace ExactCalc

def EvalError.moved (move : Nat → Nat) : EvalError → EvalError
  | .unexpectedCharacter character position => .unexpectedCharacter character (move position)
  | .misplaced position => .misplaced (move position)
  | .unbalanced position => .unbalanced (move position)
  | error => error

inductive Symbol.Alike : Symbol → Symbol → Prop where
  | same (symbol : Symbol) : Alike symbol symbol
  | number (lexeme other : List Char) : Alike (.number lexeme) (.number other)

namespace Token

variable {move : Nat → Nat}

/-- The symbols of the tokens are alike, and the second token stands where the first one moves. -/
structure Mirrors (move : Nat → Nat) (token other : Token) : Prop where
  symbol : token.symbol.Alike other.symbol
  position : other.position = move token.position

theorem placeFrom_mirrors {position other : Nat} (written : List Symbol)
    (moves : ∀ distance ≤ byteLength (written.flatMap Symbol.text),
      move (position + distance) = other + distance) :
    List.Forall₂ (Mirrors move) (placeFrom position written) (placeFrom other written) := by
  induction written generalizing position other with
  | nil => exact .nil
  | cons symbol rest ih =>
    rw [List.flatMap_cons, byteLength_append] at moves
    refine .cons ⟨.same symbol, (moves 0 (Nat.zero_le _)).symm⟩ (ih fun distance within => ?_)
    rw [Nat.add_assoc, Nat.add_assoc]
    exact moves _ (Nat.add_le_add_left within _)

end Token

variable {move : Nat → Nat}

abbrev Refuses (move : Nat → Nat) (cause other : EvalError) : Prop := other = cause.moved move

namespace Nesting

structure Mirrors (move : Nat → Nat) (nesting other : Nesting) : Prop where
  depth : other.depth = nesting.depth
  outermost : nesting.depth ≠ 0 → other.outermost = move nesting.outermost

theorem mirrors_nil : Mirrors move {} {} := ⟨rfl, fun some => absurd rfl some⟩

theorem step_mirrors (maxDepth : Nat) {nesting other : Nesting} {token moved : Token}
    (states : nesting.Mirrors move other) (tokens : token.Mirrors move moved) :
    Except.Corresponds (Refuses move) (Mirrors move) (step maxDepth nesting token)
      (step maxDepth other moved) := by
  obtain ⟨depth, outermost⟩ := other
  obtain ⟨symbol, position⟩ := token
  obtain ⟨otherSymbol, otherPosition⟩ := moved
  obtain ⟨rfl, outer⟩ := states
  obtain ⟨alike, rfl⟩ := tokens
  cases alike with
  | number lexeme digits => exact .ok ⟨rfl, outer⟩
  | same =>
    cases symbol with
    | number lexeme => exact .ok ⟨rfl, outer⟩
    | operator op => exact .ok ⟨rfl, outer⟩
    | opening =>
      simp only [step]
      split
      · exact .error rfl
      · split
        · exact .ok ⟨rfl, fun _ => rfl⟩
        · rename_i inside
          exact .ok ⟨rfl, fun _ => outer inside⟩
    | closing =>
      simp only [step]
      split
      · exact .error rfl
      · rename_i inside
        exact .ok ⟨rfl, fun _ => outer inside⟩

theorem check_mirrors (maxDepth : Nat) {tokens others : List Token}
    (mirrors : List.Forall₂ (Token.Mirrors move) tokens others) :
    Except.Corresponds (Refuses move) Eq (check maxDepth tokens) (check maxDepth others) := by
  have runs : Except.Corresponds (Refuses move) (Mirrors move)
      (tokens.foldlM (step maxDepth) {}) (others.foldlM (step maxDepth) {}) := by
    refine Except.foldlM_corresponds ?_ mirrors mirrors_nil
    exact fun _ _ _ _ states tokens => step_mirrors maxDepth states tokens
  unfold check
  refine runs.bind fun final other last => ?_
  rw [last.depth]
  split
  · exact .ok rfl
  · rename_i inside
    exact .error (congrArg EvalError.unbalanced (last.outermost inside))

end Nesting

namespace Parser

structure Mirrors (parser other : Parser) : Prop where
  expects : parser.expects = other.expects
  depth : parser.enclosing.length = other.enclosing.length

theorem begin_mirrors {parser other : Parser} {token moved : Token}
    (states : parser.Mirrors other) (tokens : token.Mirrors move moved) :
    Except.Corresponds (Refuses move) Mirrors (parser.begin token) (other.begin moved) := by
  obtain ⟨symbol, position⟩ := token
  obtain ⟨otherSymbol, otherPosition⟩ := moved
  obtain ⟨alike, rfl⟩ := tokens
  cases alike with
  | number lexeme digits => exact .ok ⟨rfl, states.depth⟩
  | same =>
    cases symbol with
    | number lexeme => exact .ok ⟨rfl, states.depth⟩
    | opening => exact .ok ⟨rfl, congrArg (· + 1) states.depth⟩
    | operator op => exact .error rfl
    | closing => exact .error rfl

theorem step_mirrors {parser other : Parser} {token moved : Token}
    (states : parser.Mirrors other) (tokens : token.Mirrors move moved) :
    Except.Corresponds (Refuses move) Mirrors (parser.step token) (other.step moved) := by
  have begins := begin_mirrors states tokens
  obtain ⟨current, enclosing, stage⟩ := parser
  obtain ⟨otherCurrent, otherEnclosing, otherStage⟩ := other
  obtain ⟨symbol, position⟩ := token
  obtain ⟨otherSymbol, otherPosition⟩ := moved
  obtain ⟨rfl, depth⟩ := states
  obtain ⟨alike, rfl⟩ := tokens
  cases stage with
  | chain =>
    cases alike with
    | number lexeme digits => exact begins
    | same =>
      cases symbol with
      | operator op =>
        cases op with
        | sub => exact .ok ⟨rfl, depth⟩
        | _ => exact begins
      | _ => exact begins
  | operand =>
    cases alike with
    | number lexeme digits => exact begins
    | same => cases symbol <;> exact begins
  | operator =>
    cases alike with
    | number lexeme digits => exact .error rfl
    | same =>
      cases symbol with
      | operator op => exact .ok ⟨rfl, depth⟩
      | closing =>
        cases enclosing with
        | nil =>
          obtain rfl := List.length_eq_zero_iff.mp depth.symm
          exact .error rfl
        | cons outer rest =>
          obtain ⟨otherOuter, otherRest, rfl⟩ := List.exists_cons_of_length_eq_add_one depth.symm
          exact .ok ⟨rfl, Nat.succ.inj depth⟩
      | _ => exact .error rfl

theorem finish_mirrors {parser other : Parser} (states : parser.Mirrors other)
    (endPosition : Nat) :
    Except.Corresponds (Refuses move) (fun _ _ => True) (parser.finish endPosition)
      (other.finish (move endPosition)) := by
  obtain ⟨current, enclosing, stage⟩ := parser
  obtain ⟨otherCurrent, otherEnclosing, otherStage⟩ := other
  obtain ⟨rfl, depth⟩ := states
  cases stage with
  | chain => exact .error rfl
  | operand => exact .error rfl
  | operator =>
    cases enclosing with
    | nil =>
      obtain rfl := List.length_eq_zero_iff.mp depth.symm
      exact .ok trivial
    | cons outer rest =>
      obtain ⟨otherOuter, otherRest, rfl⟩ := List.exists_cons_of_length_eq_add_one depth.symm
      exact .error rfl

end Parser

/-- Tokens that mirror each other are both read as chains, or refused for the same reason at the
same token. -/
theorem Chain.parse_mirrors (maxDepth endPosition : Nat) {tokens others : List Token}
    (mirrors : List.Forall₂ (Token.Mirrors move) tokens others) :
    Except.Corresponds (Refuses move) (fun _ _ => True) (Chain.parse maxDepth endPosition tokens)
      (Chain.parse maxDepth (move endPosition) others) := by
  have runs : Except.Corresponds (Refuses move) Parser.Mirrors
      (tokens.foldlM Parser.step {}) (others.foldlM Parser.step {}) := by
    refine Except.foldlM_corresponds ?_ mirrors ⟨rfl, rfl⟩
    exact fun _ _ _ _ states tokens => Parser.step_mirrors states tokens
  unfold Chain.parse
  refine (Nesting.check_mirrors maxDepth mirrors).bind fun _ _ _ => ?_
  exact runs.bind fun parser other states => Parser.finish_mirrors states endPosition

end ExactCalc
