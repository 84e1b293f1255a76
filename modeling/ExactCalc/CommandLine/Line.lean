import ExactCalc.Calculator

/-! One expression of a command line, and the text it is answered with. -/

set_option autoImplicit false

namespace ExactCalc.CommandLine

/-- Evaluate an expression, blanks at its ends apart. The answer is the text to show, with the
account before it if `explained`; a refusal names the expression too. -/
def answerIn (limits : Limits) (explained : Bool) (line : List Char) (journal : Journal) :
    Except String String × Journal :=
  let text := trimBlanks line
  let equation (value : Decimal) : String := String.ofList (text ++ " = ".toList ++ value.print)
  let refusal (error : EvalError) : String := String.ofList text ++ " : " ++ error.message
  if explained then
    let (outcome, journal) := explainIn limits text journal
    (match outcome with
      | .ok explanation =>
        .ok (String.ofList explanation.trace.print ++ equation explanation.value)
      | .error error => .error (refusal error), journal)
  else
    let (outcome, journal) := evaluateIn limits text journal
    (match outcome with
      | .ok value => .ok (equation value)
      | .error error => .error (refusal error), journal)

def answer (limits : Limits) (explained : Bool) (line : List Char) : Except String String :=
  (answerIn limits explained line { filter := .off }).1

end ExactCalc.CommandLine
