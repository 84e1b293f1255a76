import ExactCalc.Proofs.Evaluation.Outcome
import ExactCalc.Proofs.Grammar.Denotation
import ExactCalc.Proofs.Reading
import Mathlib.Data.List.Forall2

/-! An evaluation follows the grammar with precedences.

The sweep over a level knows the values of the terms so far, in a list of closed terms and the
current one. They stand for the derivation of the operands read: each operand extends both alike.
-/

set_option autoImplicit false

namespace ExactCalc.Grammar

def Settles (outcome : Outcome Decimal) (value : Option Decimal) (Raises : EvalError → Prop) :
    Prop :=
  match outcome with
  | .ok result => value = some result
  | .error error => Raises error

/-! ## Errors in the terms of a level -/

/-- One of the terms raises the error. The sums and differences of the level are left aside: they
change while operands are added. -/
def Expr.TermRaises (error : EvalError) : Expr → Prop
  | .first negated term => term.Raises error negated
  | .more before _ _ last => before.TermRaises error ∨ last.Raises error false

theorem Expr.TermRaises.raises {error : EvalError} : ∀ {expr : Expr},
    expr.TermRaises error → expr.Raises error
  | .first _ _, raises => raises
  | .more _ _ _ _, .inl raises => .inl (Expr.TermRaises.raises raises)
  | .more _ _ _ _, .inr raises => .inr (.inl raises)

theorem Expr.TermRaises.extend {error : EvalError} {before : Expr}
    (raises : before.TermRaises error) (op : Operator) (last : Factor) :
    (before.extend (op, last)).TermRaises error := by
  simp only [Expr.extend]
  split
  · cases before with
    | first negated term => exact Or.inl raises
    | more before sign additive term => exact raises.imp id Or.inl
  · exact Or.inl raises

theorem Expr.termRaises_extend {error : EvalError} (before : Expr) (op : Operator) {last : Factor}
    (raises : last.Raises error) : (before.extend (op, last)).TermRaises error := by
  simp only [Expr.extend]
  split
  · cases before with
    | first negated term => exact Or.inr (Or.inl raises)
    | more before sign additive term => exact Or.inr (Or.inr (Or.inl raises))
  · exact Or.inr raises

theorem Expr.TermRaises.foldl_extend {error : EvalError} (pairs : List (Operator × Factor))
    {before : Expr} (raises : before.TermRaises error) :
    (pairs.foldl Expr.extend before).TermRaises error := by
  induction pairs generalizing before with
  | nil => exact raises
  | cons pair rest ih => exact ih (raises.extend pair.1 pair.2)

theorem Expr.termRaises_foldl_extend {error : EvalError} (pairs : List (Operator × Factor))
    (before : Expr) {factor : Factor} (inside : factor ∈ pairs.map Prod.snd)
    (raises : factor.Raises error) : (pairs.foldl Expr.extend before).TermRaises error := by
  induction pairs generalizing before with
  | nil => simp at inside
  | cons pair rest ih =>
    rw [List.map_cons] at inside
    -- raised by the next factor, or by one of those after it
    rcases List.mem_cons.mp inside with rfl | later
    · exact (Expr.termRaises_extend before pair.1 raises).foldl_extend rest
    · exact ih _ later

theorem raises_ofChain {error : EvalError} {chain : Expression} (wellFormed : chain.WellFormed)
    {operand : Operand} (inside : operand ∈ chain.operands)
    (raises : (ofOperand operand).Raises error) : (ofChain chain).Raises error := by
  obtain ⟨negated, first, rest, operators, rfl, length⟩ := wellFormed.exists_first
  rw [ofChain_cons]
  apply Expr.TermRaises.raises
  rcases List.mem_cons.mp inside with rfl | later
  · exact Expr.TermRaises.foldl_extend _ raises
  · apply Expr.termRaises_foldl_extend _ _ _ raises
    rw [List.map_snd_zip (by simp [length])]
    exact List.mem_map_of_mem later

/-! ## The sweep over a level -/

/-- All terms of the derivation have values: those before the last one are in `closed`, latest
first, each with the operator after it, and the last one has the value `current`. -/
inductive Sweep : Expr → List (Decimal × Operator) → Decimal → Prop where
  | first {negated : Bool} {term : Term} {current : Decimal} :
      term.value decimals negated = some current → Sweep (.first negated term) [] current
  | more {before : Expr} {op : Operator} {additive : op.isMultiplicative = false} {last : Term}
      {closed : List (Decimal × Operator)} {previous current : Decimal} :
      Sweep before closed previous → last.value decimals false = some current →
      Sweep (.more before op additive last) ((previous, op) :: closed) current

section

variable {expr : Expr} {closed : List (Decimal × Operator)} {current : Decimal} {op : Operator}
  {factor : Factor} {value result : Decimal} {cause : Fault Decimal}

theorem combine_ok (applied : op.apply current value = .ok result) :
    decimals.combine op (some current) (some value) = some result := by
  simp [Semantics.combine, decimals, applied, Except.toOption]

theorem value_single (known : factor.value decimals = some value) :
    (Term.factor factor).value decimals false = some value := by
  rw [Term.value, known]
  rfl

theorem Sweep.multiply (sweep : Sweep expr closed current) (tight : op.isMultiplicative)
    (known : factor.value decimals = some value) (applied : op.apply current value = .ok result) :
    Sweep (expr.extend (op, factor)) closed result := by
  rw [Expr.extend, dif_pos tight]
  cases sweep with
  | first term => exact .first (by rw [Term.value, term, known, combine_ok applied])
  | more before term => exact .more before (by rw [Term.value, term, known, combine_ok applied])

theorem Sweep.refuse (sweep : Sweep expr closed current) (tight : op.isMultiplicative)
    (known : factor.value decimals = some value) (failed : op.apply current value = .error cause) :
    (expr.extend (op, factor)).TermRaises (.fault cause) := by
  rw [Expr.extend, dif_pos tight]
  cases sweep with
  | first term => exact Or.inr (Or.inr ⟨current, value, cause, term, known, failed, rfl⟩)
  | more before term =>
    exact Or.inr (Or.inr (Or.inr ⟨current, value, cause, term, known, failed, rfl⟩))

theorem Sweep.close (sweep : Sweep expr closed current) (loose : ¬op.isMultiplicative)
    (known : factor.value decimals = some value) :
    Sweep (expr.extend (op, factor)) ((current, op) :: closed) value := by
  rw [Expr.extend, dif_neg loose]
  exact .more sweep (value_single known)

end

/-! ## Sums and differences -/

theorem foldl_series (closed : List (Decimal × Operator)) (start : Run.Series) :
    closed.foldl (fun series (term, op) => ⟨term, (op, series.first) :: series.rest⟩) start =
      let series := Outcome.series closed start.first
      ⟨series.first, series.rest ++ start.rest⟩ := by
  induction closed generalizing start with
  | nil => rfl
  | cons pair rest ih =>
    obtain ⟨term, op⟩ := pair
    rw [Outcome.series, List.foldl_cons, List.foldl_cons, ih, ih ⟨term, [(op, start.first)]⟩]
    simp [List.append_assoc]

theorem series_cons (previous : Decimal) (op : Operator) (closed : List (Decimal × Operator))
    (current : Decimal) :
    Outcome.series ((previous, op) :: closed) current =
      let series := Outcome.series closed previous
      ⟨series.first, series.rest ++ [(op, current)]⟩ :=
  foldl_series closed ⟨previous, [(op, current)]⟩

theorem sums_concat (current : Decimal) (pairs : List (Operator × Decimal)) (op : Operator)
    (value : Decimal) :
    Outcome.sums current (pairs ++ [(op, value)]) =
      Outcome.sums current pairs >>= fun sum => Outcome.reduce op sum value := by
  induction pairs generalizing current with
  | nil =>
    simp only [List.nil_append, Outcome.sums]
    exact bind_pure _
  | cons pair rest ih =>
    simp only [List.cons_append, Outcome.sums, bind_assoc, ih]

theorem Sweep.sums_settle {expr : Expr} {closed : List (Decimal × Operator)} {current : Decimal}
    (sweep : Sweep expr closed current) :
    Settles (let series := Outcome.series closed current
      Outcome.sums series.first series.rest) (expr.value decimals) (expr.Raises ·) := by
  induction sweep with
  | first term => exact term
  | @more before op additive last closed previous current sweep term ih =>
    -- the last sum takes the term at the head of `closed`
    rw [series_cons, sums_concat, Expr.value, term]
    simp only [Settles] at ih
    cases summed : Outcome.sums (Outcome.series closed previous).first
        (Outcome.series closed previous).rest with
    | error error =>
      rw [summed] at ih
      exact Or.inl ih
    | ok sum =>
      rw [summed] at ih
      change Settles (Outcome.reduce op sum current) _ _
      unfold Outcome.reduce
      cases applied : op.apply sum current with
      | error cause => exact Or.inr (Or.inr ⟨sum, current, cause, ih, term, applied, rfl⟩)
      | ok result => rw [ih]; exact combine_ok applied

/-! ## Levels -/

/-- From any point of the sweep on: products and quotients of the operands left, then the sums and
differences of all terms. -/
theorem Sweep.settles (operators : List Operator) {factors : List Factor} {values : List Decimal}
    (known : List.Forall₂ (fun factor value => factor.value decimals = some value) factors values)
    {expr : Expr} {closed : List (Decimal × Operator)} {current : Decimal}
    (sweep : Sweep expr closed current) :
    Settles (Outcome.products closed current (operators.zip values) >>= fun series =>
        Outcome.sums series.first series.rest)
      (((operators.zip factors).foldl Expr.extend expr).value decimals)
      (((operators.zip factors).foldl Expr.extend expr).Raises ·) := by
  -- by the operands that are left, for whatever the sweep has come to
  induction known generalizing expr closed current operators with
  | nil =>
    rw [List.zip_nil_right, List.zip_nil_right]
    exact sweep.sums_settle
  | @cons factor value factors values head tail ih =>
    cases operators with
    | nil => exact sweep.sums_settle
    | cons op operators =>
      simp only [List.zip_cons_cons, List.foldl_cons, Outcome.products]
      split
      next tight =>
        unfold Outcome.reduce
        cases applied : op.apply current value with
        | error cause => exact ((sweep.refuse tight head applied).foldl_extend _).raises
        | ok result => exact ih operators (sweep.multiply tight head applied)
      next loose => exact ih operators (sweep.close loose head)

theorem collapse_settles {chain : Expression} (wellFormed : chain.WellFormed)
    {values : List Decimal}
    (known : List.Forall₂ (fun factor value => factor.value decimals = some value)
      (chain.operands.map ofOperand) values) :
    Settles (Outcome.collapse (Outcome.negateHead chain.negated values) chain.operators)
      ((ofChain chain).value decimals) ((ofChain chain).Raises ·) := by
  obtain ⟨negated, first, rest, operators, rfl, length⟩ := wellFormed.exists_first
  cases known with
  | @cons _ value _ values head tail =>
    have start : Sweep (.first negated (.factor (ofOperand first))) []
        (if negated then value.negate else value) :=
      .first (by rw [Term.value, head]; rfl)
    rw [ofChain_cons]
    exact start.settles operators tail

theorem known_of_outcomes {operands : List Operand} {values : List Decimal}
    (each : ∀ operand ∈ operands,
      Settles (operand.outcome >>= id) ((ofOperand operand).value decimals)
        ((ofOperand operand).Raises ·))
    (came : operands.map Operand.outcome = values.map (Except.ok ∘ Except.ok)) :
    List.Forall₂ (fun factor value => factor.value decimals = some value)
      (operands.map ofOperand) values := by
  induction operands generalizing values with
  | nil =>
    obtain rfl := List.map_eq_nil_iff.mp came.symm
    exact .nil
  | cons operand rest ih =>
    obtain ⟨value, others, rfl, first, later⟩ := List.map_eq_cons_iff.mp came.symm
    have settles := each operand List.mem_cons_self
    rw [← first] at settles
    exact .cons settles (ih (fun member inside => each member (List.mem_cons_of_mem _ inside))
      later.symm)

theorem outcome_settles_of_operands (chain : Expression) (wellFormed : chain.WellFormed)
    (each : ∀ operand ∈ chain.operands,
      Settles (operand.outcome >>= id) ((ofOperand operand).value decimals)
        ((ofOperand operand).Raises ·)) :
    Settles chain.outcome ((ofChain chain).value decimals) ((ofChain chain).Raises ·) := by
  have unfolded : chain.outcome = (chain.operands.map Operand.outcome).mapM id >>=
      fun readings => Outcome.level chain.negated readings chain.operators := rfl
  rw [unfolded]
  cases ran : (chain.operands.map Operand.outcome).mapM id with
  | error error =>
    -- a group came to nothing
    obtain ⟨operand, inside, failed⟩ := List.mem_map.mp (Except.mapM_id_eq_error ran)
    have raised := each operand inside
    rw [failed] at raised
    exact raises_ofChain wellFormed inside raised
  | ok readings =>
    have came := Except.mapM_id_eq_ok ran
    change Settles (readings.mapM id >>= fun values =>
      Outcome.collapse (Outcome.negateHead chain.negated values) chain.operators) _ _
    cases read : readings.mapM id with
    | error error =>
      -- a literal could not be read
      have member : .ok (.error error) ∈ chain.operands.map Operand.outcome := by
        rw [came]
        exact List.mem_map_of_mem (Except.mapM_id_eq_error read)
      obtain ⟨operand, inside, failed⟩ := List.mem_map.mp member
      have raised := each operand inside
      rw [failed] at raised
      exact raises_ofChain wellFormed inside raised
    | ok values =>
      rw [Except.mapM_id_eq_ok read, List.map_map] at came
      exact collapse_settles wellFormed (known_of_outcomes each came)

theorem operand_settles (operand : Operand) (wellFormed : operand.WellFormed) :
    Settles (operand.outcome >>= id) ((ofOperand operand).value decimals)
      ((ofOperand operand).Raises ·) := by
  induction operand, wellFormed using Operand.WellFormed.induct with
  | literal lexeme position =>
    change Settles (Form.literalValue lexeme) _ _
    rw [ofOperand_literal, Factor.value, Form.literalValue]
    cases read : Decimal.read lexeme with
    | ok value =>
      change (Decimal.read lexeme).toOption = some value
      rw [read]
      rfl
    | error cause => exact ⟨cause, read, rfl⟩
  | group chain wellFormed ih =>
    have settles := outcome_settles_of_operands chain wellFormed ih
    rw [Operand.outcome_group, ofOperand_group, Factor.value]
    cases came : chain.outcome with
    | error error => rw [came] at settles; exact settles
    | ok result => rw [came] at settles; exact settles

/-- The outcome of a chain is the value of its derivation, or an error that the derivation
raises. -/
theorem outcome_settles (chain : Expression) (wellFormed : chain.WellFormed) :
    Settles chain.outcome ((ofChain chain).value decimals) ((ofChain chain).Raises ·) :=
  outcome_settles_of_operands chain wellFormed fun operand inside =>
    operand_settles operand (wellFormed.operand inside)

theorem outcome_ok_iff {chain : Expression} (wellFormed : chain.WellFormed) (result : Decimal) :
    chain.outcome = .ok result ↔ (ofChain chain).value decimals = some result := by
  have settles := outcome_settles chain wellFormed
  cases came : chain.outcome with
  | ok other =>
    rw [came] at settles
    rw [show (ofChain chain).value decimals = some other from settles]
    exact ⟨fun same => congrArg some (Except.ok.inj same),
      fun same => congrArg Except.ok (Option.some.inj same)⟩
  | error error =>
    rw [came] at settles
    rw [(ofChain chain).value_of_raises settles]
    exact ⟨nofun, nofun⟩

theorem isArithmetic_of_outcome {chain : Expression} (wellFormed : chain.WellFormed)
    {error : EvalError} (failed : chain.outcome = .error error) : error.report.isArithmetic := by
  have settles := outcome_settles chain wellFormed
  rw [failed] at settles
  exact (ofChain chain).isArithmetic_of_raises settles

theorem symbols_eq_iff {maxDepth endPosition : Nat} {tokens : List Token} {chain : Expression}
    (parsed : Chain.parse maxDepth endPosition tokens = .ok chain) (derivation : Expr) :
    derivation.symbols = tokens.map Token.symbol ↔ derivation = ofChain chain := by
  obtain ⟨wellFormed, spells, _⟩ := (Chain.parse_ok_iff _ _ _ _).mp parsed
  rw [spells.symbols, ← symbols_ofChain chain wellFormed]
  exact ⟨Expr.eq_of_symbols, congrArg Expr.symbols⟩

end ExactCalc.Grammar

namespace ExactCalc

section

variable {limits : Limits} {text : List Char} {tokens : List Token} {chain : Expression}
  {derivation : Grammar.Expr}

theorem evaluate_ok_iff_value (accepted : readExpression limits text = .ok (tokens, chain))
    (derives : derivation.symbols = Token.symbols text) (result : Decimal) :
    evaluate limits text = .ok result ↔ derivation.value Grammar.decimals = some result := by
  obtain ⟨wellFormed, symbols⟩ := symbols_of_accepted accepted
  have same : Grammar.ofChain chain = derivation := Grammar.Expr.eq_of_symbols
    ((Grammar.symbols_ofChain chain wellFormed).trans (symbols.trans derives.symm))
  rw [evaluate_eq_outcome accepted, Grammar.outcome_ok_iff wellFormed, same]

theorem evaluate_error_of_value (accepted : readExpression limits text = .ok (tokens, chain))
    (derives : derivation.symbols = Token.symbols text)
    (undefined : derivation.value Grammar.decimals = none) :
    ∃ error, evaluate limits text = .error error ∧ error.report.isArithmetic := by
  cases came : evaluate limits text with
  | ok result =>
    rw [evaluate_ok_iff_value accepted derives, undefined] at came
    cases came
  | error error =>
    rw [evaluate_eq_outcome accepted] at came
    exact ⟨error, rfl, Grammar.isArithmetic_of_outcome (symbols_of_accepted accepted).1 came⟩

end

/-- A text that can be cut into tokens and read as a chain has one derivation in the grammar with
precedences. Unless the text is too long, it has the value of this derivation, if there is one, and
no value otherwise. -/
theorem evaluate_eq_denotation {limits : Limits} {text : List Char} {tokens : List Token}
    {chain : Expression} (scanned : Token.scan text = .ok tokens)
    (parsed : Chain.parse limits.effectiveDepth (byteLength text) tokens = .ok chain) :
    ∃ derivation : Grammar.Expr,
      (∀ other : Grammar.Expr,
        other.symbols = tokens.map Token.symbol ↔ other = derivation) ∧
      ∀ result, evaluate limits text = .ok result ↔
        byteLength text ≤ limits.maxLength ∧
          derivation.value Grammar.decimals = some result := by
  refine ⟨Grammar.ofChain chain, Grammar.symbols_eq_iff parsed, fun result => ?_⟩
  by_cases short : byteLength text ≤ limits.maxLength
  · -- both sides speak of the chain that has been read
    have accepted := (readExpression_ok_iff limits text tokens chain).mpr ⟨short, scanned, parsed⟩
    have wellFormed := ((Chain.parse_ok_iff _ _ _ _).mp parsed).1
    rw [evaluate_eq_outcome accepted, Grammar.outcome_ok_iff wellFormed]
    exact ⟨fun known => ⟨short, known⟩, And.right⟩
  · rw [evaluate_of_tooLong (Nat.not_le.mp short)]
    exact ⟨nofun, fun known => absurd known.1 short⟩

theorem Operator.isMultiplicative_add : Operator.add.isMultiplicative = false := rfl

def Grammar.Expr.negatedSum : Grammar.Expr :=
  .more (.first true (.factor (.literal ['2']))) .add Operator.isMultiplicative_add
    (.more (.factor (.literal ['3'])) .mul rfl (.literal ['4']))

def negatedSumTokens : List Token :=
  [⟨.operator .sub, 0⟩, ⟨.number ['2'], 1⟩, ⟨.operator .add, 2⟩, ⟨.number ['3'], 3⟩,
    ⟨.operator .mul, 4⟩, ⟨.number ['4'], 5⟩]

theorem evaluate_negatedSum :
    Token.scan ['-', '2', '+', '3', '*', '4'] = .ok negatedSumTokens ∧
      Chain.parse 8 6 negatedSumTokens =
        .ok ⟨true, [.literal ['2'] 1, .literal ['3'] 3, .literal ['4'] 5], [.add, .mul]⟩ ∧
      Grammar.Expr.negatedSum.value Grammar.decimals = some ⟨false, 10, 0⟩ ∧
      evaluate ⟨8, 6⟩ ['-', '2', '+', '3', '*', '4'] = .ok ⟨false, 10, 0⟩ := by
  have scanned : Token.scan ['-', '2', '+', '3', '*', '4'] = .ok negatedSumTokens := rfl
  have parsed : Chain.parse (Limits.effectiveDepth ⟨8, 6⟩) 6 negatedSumTokens =
      .ok ⟨true, [.literal ['2'] 1, .literal ['3'] 3, .literal ['4'] 5], [.add, .mul]⟩ := rfl
  have known : Grammar.Expr.negatedSum.value Grammar.decimals = some ⟨false, 10, 0⟩ := by
    decide +kernel
  obtain ⟨derivation, unique, agrees⟩ := evaluate_eq_denotation scanned parsed
  obtain rfl := (unique Grammar.Expr.negatedSum).mp rfl
  exact ⟨scanned, parsed, known, (agrees _).mpr ⟨by decide, known⟩⟩

/-- The bound on the length cannot be left out: a text beyond it has a derivation with a value and
is refused all the same. -/
theorem not_forall_evaluate_eq_value :
    ¬∀ (limits : Limits) (text : List Char) (tokens : List Token) (chain : Expression),
      Token.scan text = .ok tokens →
      Chain.parse limits.effectiveDepth (byteLength text) tokens = .ok chain →
      ∃ derivation : Grammar.Expr,
        (∀ other : Grammar.Expr,
          other.symbols = tokens.map Token.symbol ↔ other = derivation) ∧
        ∀ result, evaluate limits text = .ok result ↔
          derivation.value Grammar.decimals = some result := by
  intro claim
  obtain ⟨derivation, unique, agrees⟩ := claim ⟨256, 0⟩ ['7'] [⟨.number ['7'], 0⟩]
    ⟨false, [.literal ['7'] 0], []⟩ rfl rfl
  obtain rfl := (unique (.first false (.factor (.literal ['7'])))).mp rfl
  have refused : evaluate ⟨256, 0⟩ ['7'] = .error (.tooLong 1 0) := rfl
  have answered := (agrees ⟨false, 7, 0⟩).mpr (by decide +kernel)
  rw [refused] at answered
  cases answered

end ExactCalc
