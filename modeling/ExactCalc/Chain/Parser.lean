import ExactCalc.Chain.Basic
import ExactCalc.Chain.Nesting

/-! Reading tokens as a chain, one token at a time.

A minus may stand at the head of a chain and nowhere else before an operand. The first token that
cannot go on is the one refused.
-/

set_option autoImplicit false

namespace ExactCalc

/-- A chain being read, latest operand and operator first. -/
structure Draft where
  negated : Bool := false
  operands : List Operand := []
  operators : List Operator := []

namespace Draft

def chain (draft : Draft) : Expression :=
  ⟨draft.negated, draft.operands.reverse, draft.operators.reverse⟩

def addOperand (draft : Draft) (operand : Operand) : Draft :=
  { draft with operands := operand :: draft.operands }

def addOperator (draft : Draft) (op : Operator) : Draft :=
  { draft with operators := op :: draft.operators }

end Draft

inductive Expectation where
  /-- A chain: an operand, or a minus and then an operand. -/
  | chain
  | operand
  | operator
  deriving DecidableEq

/-- The chain being read, and those around it, innermost first. -/
structure Parser where
  current : Draft := {}
  enclosing : List Draft := []
  expects : Expectation := .chain

namespace Parser

def begin (parser : Parser) (token : Token) : Except EvalError Parser :=
  match token.symbol with
  | .number lexeme =>
    .ok { parser with
      current := parser.current.addOperand (.literal lexeme token.position)
      expects := .operator }
  | .opening => .ok { enclosing := parser.current :: parser.enclosing }
  | _ => .error (.misplaced token.position)

def step (parser : Parser) (token : Token) : Except EvalError Parser :=
  match parser.expects, token.symbol with
  | .chain, .operator .sub =>
    .ok { parser with current := { parser.current with negated := true }, expects := .operand }
  | .operator, .operator op =>
    .ok { parser with current := parser.current.addOperator op, expects := .operand }
  | .operator, .closing =>
    match parser.enclosing with
    | [] => .error (.unbalanced token.position)
    | outer :: enclosing =>
      .ok {
        current := outer.addOperand (.group parser.current.chain)
        enclosing
        expects := .operator }
  | .operator, _ => .error (.misplaced token.position)
  | _, _ => parser.begin token

def finish (parser : Parser) (endPosition : Nat) : Except EvalError Expression :=
  match parser.expects, parser.enclosing with
  | .operator, [] => .ok parser.current.chain
  | .operator, _ => .error (.unbalanced endPosition)
  | _, _ => .error (.misplaced endPosition)

end Parser

/-- Read tokens as a chain whose parentheses nest at most `maxDepth` deep. What is missing at the
end is reported at `endPosition`. -/
def Chain.parse (maxDepth endPosition : Nat) (tokens : List Token) :
    Except EvalError Expression := do
  Nesting.check maxDepth tokens
  let parser ← tokens.foldlM Parser.step {}
  parser.finish endPosition

end ExactCalc
