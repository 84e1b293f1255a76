import ExactCalc.Evaluation.Step

/-! The account of an evaluation, and its text. -/

set_option autoImplicit false

namespace ExactCalc

/-- An account in texts, whatever they say. -/
structure Trace where
  tokens : List Char
  form : List Char
  depth : Nat
  steps : List (List Char)
  store : Store

namespace Trace

def printSteps (trace : Trace) : List Char := List.intercalate ['\n'] trace.steps

def print (trace : Trace) : List Char :=
  let line (text : List Char) : List Char := text ++ ['\n']
  line ("Jetons        : ".toList ++ trace.tokens) ++
    line ("Forme         : ".toList ++ trace.form) ++
    line ("Profondeur    : ".toList ++ Nat.toDigits 10 trace.depth) ++
    line ("Substitutions : ".toList ++ trace.store.print) ++
    line "Étapes        :".toList ++
    trace.steps.flatMap fun step => line ("  ".toList ++ step)

end Trace

end ExactCalc
