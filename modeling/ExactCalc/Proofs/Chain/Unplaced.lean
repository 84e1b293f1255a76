import ExactCalc.Proofs.Chain.Parsing

/-! Trees up to the positions of their literals. Well-formed trees that are written alike are the
same up to positions. -/

set_option autoImplicit false

namespace ExactCalc

theorem Chain.map_congr {α β : Type} {f g : α → β} (chain : Chain α)
    (same : ∀ operand ∈ chain.operands, f operand = g operand) : chain.map f = chain.map g := by
  rw [Chain.map, Chain.map, List.map_congr_left same]

theorem Chain.map_map {α β γ : Type} (f : α → β) (g : β → γ) (chain : Chain α) :
    (chain.map f).map g = chain.map (g ∘ f) := by
  simp only [Chain.map, List.map_map]

def Operand.unplaced : Operand → Operand := fold (fun lexeme _ => .literal lexeme 0) .group

/-- The chain with all its literals at position zero. -/
def Chain.unplaced (chain : Expression) : Expression := chain.map Operand.unplaced

@[simp] theorem Operand.unplaced_literal (lexeme : List Char) (position : Nat) :
    (Operand.literal lexeme position).unplaced = .literal lexeme 0 := rfl

@[simp] theorem Operand.unplaced_group (chain : Expression) :
    (Operand.group chain).unplaced = .group chain.unplaced := by
  rw [Operand.unplaced, Operand.fold_group]
  rfl

theorem Chain.symbols_unplaced_of_operands (chain : Expression)
    (each : ∀ operand ∈ chain.operands, operand.unplaced.symbols = operand.symbols) :
    chain.unplaced.symbols = chain.symbols := by
  have same : chain.map (Operand.symbols ∘ Operand.unplaced) = chain.map Operand.symbols :=
    chain.map_congr each
  rw [Chain.symbols, Chain.unplaced, Chain.map_map, same]
  rfl

theorem Operand.symbols_unplaced (operand : Operand) :
    operand.unplaced.symbols = operand.symbols := by
  induction operand with
  | literal lexeme position => rfl
  | group chain ih =>
    rw [unplaced_group, symbols_group, symbols_group, chain.symbols_unplaced_of_operands ih]

@[simp] theorem Chain.symbols_unplaced (chain : Expression) :
    chain.unplaced.symbols = chain.symbols :=
  chain.symbols_unplaced_of_operands fun operand _ => operand.symbols_unplaced

theorem Chain.literals_unplaced_of_operands (chain : Expression)
    (each : ∀ operand ∈ chain.operands,
      operand.unplaced.literals = operand.literals.map fun literal => (literal.1, 0)) :
    chain.unplaced.literals = chain.literals.map fun literal => (literal.1, 0) := by
  simp only [Chain.literals, Chain.unplaced, Chain.map, List.flatMap_map, List.map_flatMap]
  rw [List.flatMap_def, List.map_congr_left each, List.flatMap_def]

theorem Operand.literals_unplaced (operand : Operand) :
    operand.unplaced.literals = operand.literals.map fun literal => (literal.1, 0) := by
  induction operand with
  | literal lexeme position => rfl
  | group chain ih =>
    rw [unplaced_group, literals_group, literals_group, chain.literals_unplaced_of_operands ih]

theorem Chain.literals_unplaced (chain : Expression) :
    chain.unplaced.literals = chain.literals.map fun literal => (literal.1, 0) :=
  chain.literals_unplaced_of_operands fun operand _ => operand.literals_unplaced

theorem Chain.wellFormed_unplaced_of_operands (chain : Expression) (wellFormed : chain.WellFormed)
    (each : ∀ operand ∈ chain.operands, operand.unplaced.WellFormed) :
    chain.unplaced.WellFormed := by
  have length := ((Chain.wellFormed_iff chain).mp wellFormed).1
  refine (Chain.wellFormed_iff _).mpr ⟨by simpa [Chain.unplaced, Chain.map] using length, ?_⟩
  exact List.forall_mem_map.mpr each

theorem Operand.wellFormed_unplaced (operand : Operand) (wellFormed : operand.WellFormed) :
    operand.unplaced.WellFormed := by
  induction operand, wellFormed using Operand.WellFormed.induct with
  | literal lexeme position => trivial
  | group chain wellFormed ih =>
    rw [unplaced_group, wellFormed_group]
    exact chain.wellFormed_unplaced_of_operands wellFormed ih

theorem Chain.wellFormed_unplaced (chain : Expression) (wellFormed : chain.WellFormed) :
    chain.unplaced.WellFormed :=
  chain.wellFormed_unplaced_of_operands wellFormed fun operand inside =>
    operand.wellFormed_unplaced (wellFormed.operand inside)

theorem Chain.unplaced_spelled (chain : Expression) (wellFormed : chain.WellFormed) :
    Token.Spells (chain.symbols.map fun symbol => ⟨symbol, 0⟩) chain.unplaced.symbols
      chain.unplaced.literals where
  symbols := by
    rw [Chain.symbols_unplaced, List.map_map]
    exact List.map_id _
  literals := by
    have moved : (fun literal : List Char × Nat => (literal.1, 0)) =
        (fun lexeme => (lexeme, 0)) ∘ Prod.fst := rfl
    rw [Chain.literals_unplaced, moved, ← List.map_map, chain.lexemes_eq wellFormed,
      Symbol.lexemes, List.map_filterMap, List.filterMap_map]
    congr 1
    funext symbol
    cases symbol <;> rfl

/-- Well-formed chains that are written alike differ in positions only. -/
theorem Chain.unplaced_eq_of_symbols {first second : Expression} (left : first.WellFormed)
    (right : second.WellFormed) (same : first.symbols = second.symbols) :
    first.unplaced = second.unplaced := by
  have spelled := second.unplaced_spelled right
  rw [← same] at spelled
  -- both are what the parser makes of the symbols, with room enough for each
  have parsed (chain : Expression) := Chain.parse_ok_iff
    (max first.unplaced.depth second.unplaced.depth) 0
    (first.symbols.map fun symbol => ⟨symbol, 0⟩) chain
  have one := (parsed first.unplaced).mpr
    ⟨first.wellFormed_unplaced left, first.unplaced_spelled left, Nat.le_max_left _ _⟩
  have other := (parsed second.unplaced).mpr
    ⟨second.wellFormed_unplaced right, spelled, Nat.le_max_right _ _⟩
  exact Except.ok.inj (one.symm.trans other)

/-! ## Chains alike up to positions -/

theorem Chain.print_eq_of_unplaced {first second : Expression}
    (same : first.unplaced = second.unplaced) : first.print = second.print := by
  rw [Chain.print, ← first.symbols_unplaced, same, second.symbols_unplaced, Chain.print]

theorem Operand.eq_literal_of_unplaced {operand : Operand} {lexeme : List Char}
    (same : operand.unplaced = .literal lexeme 0) :
    ∃ position, operand = .literal lexeme position := by
  cases operand with
  | literal other position =>
    cases same
    exact ⟨position, rfl⟩
  | group chain =>
    rw [unplaced_group] at same
    cases same

theorem Operand.eq_group_of_unplaced {operand : Operand} {chain : Expression}
    (same : operand.unplaced = .group chain) :
    ∃ inner, operand = .group inner ∧ inner.unplaced = chain := by
  cases operand with
  | literal lexeme position => cases same
  | group inner =>
    rw [unplaced_group] at same
    exact ⟨inner, rfl, Operand.group.inj same⟩

theorem Chain.isLoneLiteral_unplaced (chain : Expression) :
    chain.unplaced.isLoneLiteral = chain.isLoneLiteral := by
  obtain ⟨negated, operands, operators⟩ := chain
  cases operands with
  | nil => rfl
  | cons first rest =>
    cases first with
    | literal lexeme position => rfl
    | group inner =>
      simp only [isLoneLiteral, unplaced, Chain.map, List.map_cons, Operand.unplaced_group]

end ExactCalc
