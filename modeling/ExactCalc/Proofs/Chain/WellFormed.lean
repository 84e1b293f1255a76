import ExactCalc.Chain.Basic

/-! Chains with an operator between each two operands, and what such a chain is written with.

`Chain.symbols` leaves operators in excess out, so two chains can be written alike; well-formed
ones cannot. Literals are listed with their positions, which the symbols do not show.
-/

set_option autoImplicit false

namespace ExactCalc

mutual

theorem Operand.holds {motive : Operand → Prop}
    (literal : ∀ lexeme position, motive (.literal lexeme position))
    (group : ∀ chain : Expression, (∀ operand ∈ chain.operands, motive operand) →
      motive (.group chain)) : ∀ operand, motive operand
  | .literal lexeme position => literal lexeme position
  | .group ⟨negated, operands, operators⟩ =>
    group ⟨negated, operands, operators⟩ (Operand.holdsAll literal group operands)

theorem Operand.holdsAll {motive : Operand → Prop}
    (literal : ∀ lexeme position, motive (.literal lexeme position))
    (group : ∀ chain : Expression, (∀ operand ∈ chain.operands, motive operand) →
      motive (.group chain)) : ∀ operands : List Operand, ∀ operand ∈ operands, motive operand
  | [], _, member => nomatch member
  | first :: rest, operand, member => by
    rcases List.mem_cons.mp member with same | member
    · rw [same]
      exact Operand.holds literal group first
    · exact Operand.holdsAll literal group rest operand member

end

/-- Induction on an operand: a group has what all its operands have. -/
@[induction_eliminator]
theorem Operand.induct {motive : Operand → Prop}
    (literal : ∀ lexeme position, motive (.literal lexeme position))
    (group : ∀ chain : Expression, (∀ operand ∈ chain.operands, motive operand) →
      motive (.group chain)) (operand : Operand) : motive operand :=
  Operand.holds literal group operand

/-! ## Well-formed chains -/

def Chain.WellFormedLevel (level : Chain Prop) : Prop :=
  level.operands.length = level.operators.length + 1 ∧ ∀ operand ∈ level.operands, operand

def Operand.WellFormed : Operand → Prop := fold (fun _ _ => True) Chain.WellFormedLevel

/-- One operator less than operands at every level. -/
def Chain.WellFormed (chain : Expression) : Prop :=
  (chain.map Operand.WellFormed).WellFormedLevel

@[simp] theorem Operand.wellFormed_literal (lexeme : List Char) (position : Nat) :
    (Operand.literal lexeme position).WellFormed := trivial

@[simp] theorem Operand.wellFormed_group (chain : Expression) :
    (Operand.group chain).WellFormed ↔ chain.WellFormed := by
  rw [Operand.WellFormed, Operand.fold_group]
  rfl

theorem Chain.wellFormed_iff (chain : Expression) :
    chain.WellFormed ↔ chain.operands.length = chain.operators.length + 1 ∧
      ∀ operand ∈ chain.operands, operand.WellFormed := by
  simp only [Chain.WellFormed, Chain.WellFormedLevel, Chain.map, List.length_map,
    List.forall_mem_map]

theorem Chain.WellFormed.operand {chain : Expression} (wellFormed : chain.WellFormed)
    {member : Operand} (inside : member ∈ chain.operands) : member.WellFormed :=
  ((Chain.wellFormed_iff chain).mp wellFormed).2 member inside

theorem Chain.WellFormed.exists_first {chain : Expression} (wellFormed : chain.WellFormed) :
    ∃ negated first rest operators, chain = ⟨negated, first :: rest, operators⟩ ∧
      rest.length = operators.length := by
  obtain ⟨negated, operands, operators⟩ := chain
  have length := ((Chain.wellFormed_iff _).mp wellFormed).1
  cases operands with
  | nil => cases length
  | cons first rest => exact ⟨negated, first, rest, operators, rfl, Nat.succ.inj length⟩

theorem Operand.WellFormed.induct {motive : ∀ operand : Operand, operand.WellFormed → Prop}
    (literal : ∀ lexeme position, motive (.literal lexeme position) trivial)
    (group : ∀ (chain : Expression) (wellFormed : chain.WellFormed),
      (∀ member (inside : member ∈ chain.operands), motive member (wellFormed.operand inside)) →
      motive (.group chain) ((wellFormed_group chain).mpr wellFormed))
    (operand : Operand) (wellFormed : operand.WellFormed) : motive operand wellFormed := by
  induction operand with
  | literal lexeme position => exact literal lexeme position
  | group chain ih =>
    have complete := (wellFormed_group chain).mp wellFormed
    exact group chain complete fun member inside => ih member inside (complete.operand inside)

/-! ## Literals -/

def Operand.literals : Operand → List (List Char × Nat) :=
  fold (fun lexeme position => [(lexeme, position)]) (fun level => level.operands.flatten)

def Chain.literals (chain : Expression) : List (List Char × Nat) :=
  chain.operands.flatMap Operand.literals

@[simp] theorem Operand.literals_literal (lexeme : List Char) (position : Nat) :
    (Operand.literal lexeme position).literals = [(lexeme, position)] := rfl

@[simp] theorem Operand.literals_group (chain : Expression) :
    (Operand.group chain).literals = chain.literals := by
  rw [Operand.literals, Operand.fold_group]
  rfl

/-! ## Symbols -/

@[simp] theorem Operand.symbols_literal (lexeme : List Char) (position : Nat) :
    (Operand.literal lexeme position).symbols = [.number lexeme] := rfl

@[simp] theorem Operand.symbols_group (chain : Expression) :
    (Operand.group chain).symbols = .opening :: chain.symbols ++ [.closing] := by
  rw [Operand.symbols, Operand.fold_group]
  rfl

def Symbol.head (negated : Bool) : List Symbol := if negated then [.operator .sub] else []

/-- Operands written one after the other, each with its operator in front. -/
def Symbol.series (pairs : List (Operator × Operand)) : List Symbol :=
  pairs.flatMap fun (op, operand) => .operator op :: operand.symbols

@[simp] theorem Symbol.series_nil : series [] = [] := rfl

@[simp] theorem Symbol.series_cons (op : Operator) (operand : Operand)
    (rest : List (Operator × Operand)) :
    series ((op, operand) :: rest) = .operator op :: operand.symbols ++ series rest := rfl

theorem Symbol.interleave_eq_series (operands : List Operand) (operators : List Operator)
    (enough : operands.length ≤ operators.length) :
    interleave (operands.map Operand.symbols) operators = series (operators.zip operands) := by
  induction operands generalizing operators with
  | nil => simp [interleave]
  | cons operand rest ih =>
    cases operators with
    | nil => simp at enough
    | cons op operators =>
      simp only [List.length_cons, Nat.add_le_add_iff_right] at enough
      simp [interleave, ih operators enough]

theorem Chain.symbols_cons (negated : Bool) (first : Operand) (rest : List Operand)
    (operators : List Operator) (enough : rest.length ≤ operators.length) :
    Chain.symbols ⟨negated, first :: rest, operators⟩ =
      Symbol.head negated ++ first.symbols ++ Symbol.series (operators.zip rest) := by
  rw [← Symbol.interleave_eq_series rest operators enough]
  rfl

theorem Chain.symbols_concat (negated : Bool) (operands : List Operand)
    (operators : List Operator) (op : Operator) (operand : Operand)
    (complete : operands.length = operators.length + 1) :
    Chain.symbols ⟨negated, operands ++ [operand], operators ++ [op]⟩ =
      Chain.symbols ⟨negated, operands, operators⟩ ++ .operator op :: operand.symbols := by
  cases operands with
  | nil => simp at complete
  | cons first rest =>
    have same : rest.length = operators.length := by simpa using complete
    rw [List.cons_append, Chain.symbols_cons _ _ _ _ (by simp [same]),
      Chain.symbols_cons _ _ _ _ (by omega), List.zip_append same.symm]
    simp [Symbol.series, List.append_assoc]

end ExactCalc
