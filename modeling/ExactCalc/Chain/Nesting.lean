import ExactCalc.Error
import ExactCalc.Token

/-! Balance and depth of parentheses, checked before the tokens are read as a chain. -/

set_option autoImplicit false

namespace ExactCalc

structure Nesting where
  depth : Nat := 0
  outermost : Nat := 0

namespace Nesting

def step (maxDepth : Nat) (nesting : Nesting) (token : Token) : Except EvalError Nesting :=
  match token.symbol with
  | .opening =>
    if maxDepth ≤ nesting.depth then .error (.tooDeep maxDepth)
    -- Of the parentheses left open only the outermost is reported, so no other place is kept.
    else if nesting.depth = 0 then .ok ⟨1, token.position⟩
    else .ok { nesting with depth := nesting.depth + 1 }
  | .closing =>
    if nesting.depth = 0 then .error (.unbalanced token.position)
    else .ok { nesting with depth := nesting.depth - 1 }
  | _ => .ok nesting

/-- Check that parentheses match and nest at most `maxDepth` deep. One left open at the end is
reported where the outermost one stands. -/
def check (maxDepth : Nat) (tokens : List Token) : Except EvalError Unit := do
  let final ← tokens.foldlM (step maxDepth) {}
  if final.depth = 0 then return else .error (.unbalanced final.outermost)

end Nesting

end ExactCalc
