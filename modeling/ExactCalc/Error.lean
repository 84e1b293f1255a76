import ExactCalc.Operator
import ExactCalc.Decimal.Reading
import ExactCalc.Evaluation.Store

/-! Why an expression is refused, and how a refusal is worded. -/

set_option autoImplicit false

namespace ExactCalc

/-- Positions and lengths are in bytes. -/
inductive EvalError where
  | unexpectedCharacter (character : Char) (position : Nat)
  /-- A symbol, or the end of the text, that cannot stand where it stands. -/
  | misplaced (position : Nat)
  | unbalanced (position : Nat)
  | noOperand
  /-- A marker under whose index nothing is stored. -/
  | unknownMarker (index : Nat)
  | badLiteral (lexeme : List Char) (cause : ReadError)
  | fault (cause : Fault Decimal)
  | tooDeep (limit : Nat)
  | tooLong (length limit : Nat)
  deriving DecidableEq

inductive Report where
  | malformed (reason : String) (position : Option Nat)
  | arithmetic (reason : String)
  | tooDeep (limit : Nat)
  | tooLong (length limit : Nat)
  deriving DecidableEq

namespace Report

def isSyntax : Report → Bool
  | .malformed .. => true
  | _ => false

def isArithmetic : Report → Bool
  | .arithmetic _ => true
  | _ => false

def isResource : Report → Bool
  | .tooDeep _ | .tooLong .. => true
  | _ => false

def message : Report → String
  | .malformed reason none => s!"Erreur de syntaxe: {reason}"
  | .malformed reason (some position) => s!"Erreur de syntaxe: {reason} (position {position})"
  | .arithmetic reason => s!"Erreur arithmétique: {reason}"
  | .tooDeep limit => s!"Imbrication trop profonde (limite: {limit} niveaux)"
  | .tooLong length limit => s!"Entrée trop longue ({length} octets, limite: {limit})"

end Report

namespace EvalError

def report : EvalError → Report
  | .unexpectedCharacter character position =>
    .malformed s!"caractère inattendu: '{character}'" (some position)
  | .misplaced position => .malformed "invalid maths" (some position)
  | .unbalanced position => .malformed "parentheses mismatch" (some position)
  | .noOperand => .malformed "invalid maths" none
  | .unknownMarker index =>
    .malformed s!"substitution inconnue: {String.ofList (Store.marker index)}" none
  | .badLiteral lexeme cause =>
    .arithmetic s!"littéral invalide '{String.ofList lexeme}': {cause.message}"
  | .fault cause => .arithmetic cause.reason
  | .tooDeep limit => .tooDeep limit
  | .tooLong length limit => .tooLong length limit

def message (error : EvalError) : String := error.report.message

end EvalError

end ExactCalc
