import ExactCalc.Chain.Parser
import ExactCalc.Evaluation.Run
import ExactCalc.Evaluation.Trace
import ExactCalc.Limits
import ExactCalc.Token.Scan

/-! Evaluating a text: its length is checked first, then it is cut into tokens, read as a chain and
evaluated. So a fault in the writing is reported before any literal is read. -/

set_option autoImplicit false

namespace ExactCalc

def readExpression (limits : Limits) (text : List Char) :
    Except EvalError (List Token × Expression) :=
  let length := byteLength text
  if limits.maxLength < length then .error (.tooLong length limits.maxLength)
  else do
    let tokens ← Token.scan text
    let expression ← Chain.parse limits.effectiveDepth length tokens
    return (tokens, expression)

structure Explanation where
  value : Decimal
  tokens : List Token
  expression : Expression
  steps : List Step
  store : Store

def Explanation.trace (explanation : Explanation) : Trace where
  tokens := Token.spacedText explanation.tokens
  form := explanation.expression.print
  depth := explanation.expression.depth
  steps := explanation.steps.map Step.print
  store := explanation.store

def evaluateIn (limits : Limits) (text : List Char) (journal : Journal) :
    Except EvalError Decimal × Journal :=
  match readExpression limits text with
  | .error error => (.error error, journal)
  | .ok (_, expression) =>
    match (Run.evaluate expression).run.run { steps := none, journal } with
    | (.error error, progress) => (.error error, progress.journal)
    | (.ok value, progress) =>
      (.ok value, progress.journal.log .debug evaluationTarget fun _ =>
        String.ofList (text ++ " = ".toList ++ value.print))

/-- Evaluate a text with the account of it and log it in the journal. -/
def explainIn (limits : Limits) (text : List Char) (journal : Journal) :
    Except EvalError Explanation × Journal :=
  match readExpression limits text with
  | .error error => (.error error, journal)
  | .ok (tokens, expression) =>
    match (Run.evaluate expression).run.run { steps := some #[], journal } with
    | (.error error, progress) => (.error error, progress.journal)
    | (.ok value, progress) =>
      let steps := (progress.steps.getD #[]).toList
      let store := progress.store
      (.ok { value, tokens, expression, steps, store },
        progress.journal.log .debug evaluationTarget fun _ =>
          String.ofList (text ++ " = ".toList ++ value.print) ++
            s!" ({steps.length} étapes, {store.size} substitutions)")

def evaluate (limits : Limits) (text : List Char) : Except EvalError Decimal :=
  (evaluateIn limits text { filter := .off }).1

def explain (limits : Limits) (text : List Char) : Except EvalError Explanation :=
  (explainIn limits text { filter := .off }).1

end ExactCalc
