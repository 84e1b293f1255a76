import ExactCalc.Operator
import ExactCalc.Text.Bytes

/-! The symbols an expression is written with. A literal is kept as written; whether it is a
decimal is asked only when it is evaluated. -/

set_option autoImplicit false

namespace ExactCalc

inductive Symbol where
  | number (lexeme : List Char)
  | operator (op : Operator)
  | opening
  | closing
  deriving DecidableEq

def Symbol.text : Symbol → List Char
  | .number lexeme => lexeme
  | .operator op => [op.symbol]
  | .opening => ['(']
  | .closing => [')']

/-- A symbol and the byte where it starts. -/
structure Token where
  symbol : Symbol
  position : Nat
  deriving DecidableEq

namespace Token

def spacedText (tokens : List Token) : List Char :=
  List.intercalate [' '] (tokens.map (·.symbol.text))

end Token

end ExactCalc
