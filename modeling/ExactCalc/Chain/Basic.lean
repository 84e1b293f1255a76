import ExactCalc.Token

/-! Expressions as chains of operands.

A chain is one level of parentheses: an optional head minus, then operands with an operator
between each two. An operand is a literal or a chain in parentheses. A chain from the parser has
one operator less than operands; the type leaves room for others, so that this can be stated.
-/

set_option autoImplicit false

namespace ExactCalc

/-- One level, with operands of any kind. -/
structure Chain (α : Type) where
  negated : Bool
  operands : List α
  operators : List Operator
  deriving DecidableEq

inductive Operand where
  | literal (lexeme : List Char) (position : Nat)
  | group (chain : Chain Operand)

abbrev Expression := Chain Operand

def Chain.map {α β : Type} (f : α → β) (chain : Chain α) : Chain β :=
  { chain with operands := chain.operands.map f }

namespace Operand

variable {β : Type}

mutual

def fold (literal : List Char → Nat → β) (group : Chain β → β) : Operand → β
  | .literal lexeme position => literal lexeme position
  | .group ⟨negated, operands, operators⟩ =>
    group ⟨negated, foldAll literal group operands, operators⟩

def foldAll (literal : List Char → Nat → β) (group : Chain β → β) : List Operand → List β
  | [] => []
  | operand :: rest => fold literal group operand :: foldAll literal group rest

end

@[simp] theorem foldAll_eq_map (literal : List Char → Nat → β) (group : Chain β → β)
    (operands : List Operand) :
    foldAll literal group operands = operands.map (fold literal group) := by
  induction operands with
  | nil => rfl
  | cons operand rest ih => simp only [foldAll, ih, List.map_cons]

@[simp] theorem fold_literal (literal : List Char → Nat → β) (group : Chain β → β)
    (lexeme : List Char) (position : Nat) :
    fold literal group (.literal lexeme position) = literal lexeme position := rfl

@[simp] theorem fold_group (literal : List Char → Nat → β) (group : Chain β → β)
    (chain : Expression) :
    fold literal group (.group chain) = group (chain.map (fold literal group)) := by
  simp only [fold, foldAll_eq_map, Chain.map]

end Operand

def Chain.deepest (depths : Chain Nat) : Nat := depths.operands.foldl max 0

def Operand.depth : Operand → Nat :=
  fold (fun _ _ => 0) (fun depths => depths.deepest + 1)

def Chain.depth (chain : Expression) : Nat := (chain.map Operand.depth).deepest

def Symbol.interleave : List (List Symbol) → List Operator → List Symbol
  | [], _ => []
  | operand :: rest, [] => operand ++ interleave rest []
  | operand :: rest, op :: operators => .operator op :: operand ++ interleave rest operators

/-- One level written out, from its operands written out. Operators in excess are left out. -/
def Chain.flatten (chain : Chain (List Symbol)) : List Symbol :=
  let head := if chain.negated then [.operator .sub] else []
  match chain.operands with
  | [] => head
  | first :: rest => head ++ first ++ Symbol.interleave rest chain.operators

def Operand.symbols : Operand → List Symbol :=
  fold (fun lexeme _ => [.number lexeme]) (fun chain => .opening :: chain.flatten ++ [.closing])

def Chain.symbols (chain : Expression) : List Symbol := (chain.map Operand.symbols).flatten

def Chain.print (chain : Expression) : List Char := chain.symbols.flatMap Symbol.text

def Chain.isCompleteLevel (chain : Chain Bool) : Bool :=
  decide (chain.operands.length ≤ chain.operators.length + 1) && chain.operands.all id

def Operand.isComplete : Operand → Bool := fold (fun _ _ => true) Chain.isCompleteLevel

def Chain.isComplete (chain : Expression) : Bool := (chain.map Operand.isComplete).isCompleteLevel

/-- The text of a chain in which no operator is missing. -/
def Chain.print? (chain : Expression) : Option (List Char) :=
  if chain.isComplete then some chain.print else none

/-- Whether the chain is one literal, with or without a minus: it then stands for itself. -/
def Chain.isLoneLiteral (chain : Expression) : Bool :=
  chain.operators.isEmpty &&
    match chain.operands with
    | .literal .. :: _ => true
    | _ => false

mutual

def Operand.levels (level : Nat) : Operand → List (Nat × Expression)
  | .literal .. => []
  | .group ⟨negated, operands, operators⟩ =>
    (level, ⟨negated, operands, operators⟩) :: levelsAll (level + 1) operands

def Operand.levelsAll (level : Nat) : List Operand → List (Nat × Expression)
  | [] => []
  | operand :: rest => levels level operand ++ levelsAll level rest

end

/-- A chain and all chains inside it, each before its own and with its level. -/
def Chain.levels (chain : Expression) : List (Nat × Expression) :=
  (0, chain) :: Operand.levelsAll 1 chain.operands

end ExactCalc
