import ExactCalc.Chain.Basic
import ExactCalc.Error
import ExactCalc.Evaluation.Store

/-! What an evaluation does, step by step, and how a step is written. -/

set_option autoImplicit false

namespace ExactCalc

/-- An operand once its group, if it is one, has been evaluated: a literal as written, or the marker
of a stored value. -/
inductive Form where
  | literal (lexeme : List Char)
  | stored (index : Nat)
  deriving DecidableEq

namespace Form

def isStored : Form → Bool
  | .literal _ => false
  | .stored _ => true

def print : Form → List Char
  | .literal lexeme => lexeme
  | .stored index => Store.marker index

def literalValue (lexeme : List Char) : Except EvalError Decimal :=
  match Decimal.read lexeme with
  | .ok value => .ok value
  | .error cause => .error (.badLiteral lexeme cause)

def storedValue (store : Store) (index : Nat) : Except EvalError Decimal :=
  match store.get? index with
  | some value => .ok value
  | none => .error (.unknownMarker index)

def value (store : Store) : Form → Except EvalError Decimal
  | .literal lexeme => literalValue lexeme
  | .stored index => storedValue store index

def values (store : Store) (forms : List Form) : Except EvalError (List Decimal) :=
  forms.mapM (value store)

end Form

inductive Step where
  | group (index : Nat) (expression : Expression) (value : Decimal)
  | negation (index : Nat) (form : Form) (value : Decimal)
  /-- The chain as it stands with markers in the place of stored values. -/
  | rewriting (forms : List Form) (operators : List Operator)
  | reduction (a : Decimal) (op : Operator) (b result : Decimal)

namespace Step

def printForms (forms : List Form) (operators : List Operator) : List Char :=
  match forms with
  | [] => []
  | first :: rest =>
    first.print ++ (operators.zip rest).flatMap fun (op, form) => op.symbol :: form.print

def print : Step → List Char
  | .group index expression value =>
    Store.marker index ++ " = (".toList ++ expression.print ++ ") = ".toList ++ value.print
  | .negation index form value =>
    Store.marker index ++ " = -".toList ++ form.print ++ " = ".toList ++ value.print
  | .rewriting forms operators => "=> ".toList ++ printForms forms operators
  | .reduction a op b result =>
    a.print ++ [' ', op.symbol, ' '] ++ b.print ++ " = ".toList ++ result.print

end Step

end ExactCalc
