import ExactCalc.Evaluation.Step
import ExactCalc.Journal

/-! Evaluating a chain, level by level.

At each level the groups go first, from the left; then literals are read, the head minus is
applied to the first operand, and the operators are reduced: products and quotients in one sweep
from the left, sums and differences in a second one.
-/

set_option autoImplicit false

namespace ExactCalc

def evaluationTarget : String := "calculatrice_decimale::noyau::eval"

/-- What an evaluation has left behind so far. Without `steps` it keeps no account of them. -/
structure Progress where
  store : Store := {}
  steps : Option (Array Step)
  journal : Journal

/-- An evaluation that may be refused; what it had done until then is kept. -/
abbrev Run := ExceptT EvalError (StateM Progress)

namespace Run

def note (step : Step) : Run Unit :=
  modify fun progress =>
    { progress with
      steps := progress.steps.map (·.push step)
      journal :=
        progress.journal.log .trace evaluationTarget fun _ => String.ofList step.print }

def store (value : Decimal) : Run Nat :=
  modifyGet fun progress =>
    (progress.store.size, { progress with store := progress.store.add value })

def reduce (op : Operator) (a b : Decimal) : Run Decimal :=
  match op.apply a b with
  | .error cause => throw (.fault cause)
  | .ok result => do
    note (.reduction a op b result)
    return result

structure Series where
  first : Decimal
  rest : List (Operator × Decimal)

/-- Reduce products and quotients from the left. `closed` holds the terms before `current`, latest
first, each with the operator after it. -/
def products (closed : List (Decimal × Operator)) (current : Decimal) :
    List (Operator × Decimal) → Run Series
  | [] =>
    return closed.foldl (fun series (term, op) => ⟨term, (op, series.first) :: series.rest⟩)
      ⟨current, []⟩
  | (op, next) :: rest =>
    if op.isMultiplicative then do
      let result ← reduce op current next
      products closed result rest
    else products ((current, op) :: closed) next rest

def sums (current : Decimal) : List (Operator × Decimal) → Run Decimal
  | [] => return current
  | (op, next) :: rest => do
    let result ← reduce op current next
    sums result rest

def collapse (values : List Decimal) (operators : List Operator) : Run Decimal :=
  match values with
  | [] => throw .noOperand
  | first :: rest => do
    let series ← products [] first (operators.zip rest)
    sums series.first series.rest

/-- Apply the head minus. The result is stored, unless the chain stands for itself. -/
def negateFirst (lone : Bool) (forms : List Form) (values : List Decimal) :
    Run (List Form × List Decimal) :=
  match forms, values with
  | form :: forms, value :: values => do
    let value := value.negate
    if lone then return (form :: forms, value :: values)
    else
      let index ← store value
      note (.negation index form value)
      return (.stored index :: forms, value :: values)
  | _, _ => return (forms, values)

def level (negated lone : Bool) (forms : List Form) (operators : List Operator) :
    Run Decimal := do
  let values ← Form.values (← get).store forms
  let (forms, values) ←
    if negated then negateFirst lone forms values else pure (forms, values)
  -- A chain of one operand, or one of literals only, would be written as it stands.
  if !operators.isEmpty && forms.any Form.isStored then
    note (.rewriting forms operators)
  collapse values operators

mutual

def operand : Operand → Run Form
  | .literal lexeme _ => return .literal lexeme
  | .group chain => do
    let value ← evaluate chain
    let index ← store value
    note (.group index chain value)
    return .stored index

def evaluate : Chain Operand → Run Decimal
  | ⟨negated, operands, operators⟩ => do
    let forms ← operandsFrom [] operands
    level negated (Chain.isLoneLiteral ⟨negated, operands, operators⟩) forms operators

def operandsFrom (found : List Form) : List Operand → Run (List Form)
  | [] => return found.reverse
  | first :: rest => do
    let form ← operand first
    operandsFrom (form :: found) rest

end

end Run

end ExactCalc
