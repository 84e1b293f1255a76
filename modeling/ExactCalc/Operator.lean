import ExactCalc.Decimal.Arithmetic
import ExactCalc.Decimal.Division
import ExactCalc.Decimal.Printing

/-! The four operators on numbers that can overflow. -/

set_option autoImplicit false

namespace ExactCalc

inductive Operator where
  | add
  | sub
  | mul
  | div
  deriving DecidableEq

def Operator.symbol : Operator → Char
  | .add => '+'
  | .sub => '-'
  | .mul => '*'
  | .div => '/'

def Operator.isMultiplicative : Operator → Bool
  | .mul | .div => true
  | .add | .sub => false

/-- Numbers with the four operations; `none` is a result that is no number of the kind. -/
class CheckedArithmetic (α : Type) where
  isZero : α → Bool
  add? : α → α → Option α
  sub? : α → α → Option α
  mul? : α → α → Option α
  div? : α → α → Option α
  print : α → List Char

instance : CheckedArithmetic Decimal where
  isZero := Decimal.isZero
  add? := Decimal.add?
  sub? := Decimal.sub?
  mul? := Decimal.mul?
  div? := Decimal.div?
  print := Decimal.print

def int64? (value : Int) : Option Int64 :=
  if Int64.minValue.toInt ≤ value ∧ value ≤ Int64.maxValue.toInt then some (Int64.ofInt value)
  else none

/-- Division goes toward zero. -/
instance : CheckedArithmetic Int64 where
  isZero a := a == 0
  add? a b := int64? (a.toInt + b.toInt)
  sub? a b := int64? (a.toInt - b.toInt)
  mul? a b := int64? (a.toInt * b.toInt)
  div? a b := int64? (a.toInt.tdiv b.toInt)
  print a := (toString a.toInt).toList

inductive Fault (α : Type) where
  | divisionByZero (a b : α)
  | overflow (op : Operator) (a b : α)
  deriving DecidableEq

variable {α : Type} [CheckedArithmetic α]

def Operator.compute? : Operator → α → α → Option α
  | .add => CheckedArithmetic.add?
  | .sub => CheckedArithmetic.sub?
  | .mul => CheckedArithmetic.mul?
  | .div => CheckedArithmetic.div?

/-- Apply an operator; a zero divisor is found before the division is tried. -/
def Operator.apply (op : Operator) (a b : α) : Except (Fault α) α :=
  if op = .div ∧ CheckedArithmetic.isZero b then .error (.divisionByZero a b)
  else
    match op.compute? a b with
    | some result => .ok result
    | none => .error (.overflow op a b)

def Fault.reason : Fault α → String
  | .divisionByZero a b => s!"division par zéro ({operand a} / {operand b})"
  | .overflow op a b => s!"dépassement de capacité ({operand a} {op.symbol} {operand b})"
where
  operand (a : α) : String := String.ofList (CheckedArithmetic.print a)

end ExactCalc
