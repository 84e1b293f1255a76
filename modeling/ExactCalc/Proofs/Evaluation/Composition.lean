import ExactCalc.Proofs.Chain.RoundTrip
import ExactCalc.Proofs.Evaluation.Literal
import ExactCalc.Proofs.Evaluation.Parts
import ExactCalc.Proofs.Reading

/-! The account of a text is made of the accounts of the texts inside its parentheses.

What is written inside the parentheses of an accepted text is accepted as a text of its own, and
read as the same chain up to positions. So the part that a group has in the account of the whole is
the account of its text.
-/

set_option autoImplicit false

namespace ExactCalc

/-! ## Texts inside a text -/

/-- The operand as a chain of its own: of a group, what is inside its parentheses. -/
def Operand.alone : Operand → Expression
  | .literal lexeme position => ⟨false, [.literal lexeme position], []⟩
  | .group chain => chain

namespace Operand

theorem WellFormed.alone {operand : Operand} (wellFormed : operand.WellFormed) :
    operand.alone.WellFormed := by
  cases operand with
  | literal lexeme position => simp [Operand.alone, Chain.wellFormed_iff]
  | group chain => exact (wellFormed_group chain).mp wellFormed

theorem infix_alone (operand : Operand) : operand.alone.symbols <:+: operand.symbols := by
  cases operand with
  | literal lexeme position => exact List.infix_rfl
  | group chain => exact ⟨[.opening], [.closing], (symbols_group chain).symm⟩

theorem depth_alone_le (operand : Operand) : operand.alone.depth ≤ operand.depth := by
  cases operand with
  | literal lexeme position => exact Nat.le_refl _
  | group chain =>
    rw [depth_group]
    exact Nat.le_succ _

theorem outcome_alone {operand : Operand} {value : Decimal}
    (came : operand.outcome = .ok (.ok value)) : operand.alone.outcome = .ok value := by
  cases operand with
  | literal lexeme position =>
    have read : Form.literalValue lexeme = .ok value := Except.ok.inj came
    rw [alone, Chain.outcome_literal, read]
    rfl
  | group chain =>
    rw [outcome_group] at came
    obtain ⟨_, settled, same⟩ := Except.map_eq_ok_iff.mp came
    cases same
    exact settled

end Operand

theorem readExpression_inside {limits : Limits} {text : List Char} {tokens : List Token}
    {whole inner : Expression} (accepted : readExpression limits text = .ok (tokens, whole))
    (wellFormed : inner.WellFormed) (inside : inner.symbols <:+: whole.symbols)
    (depth : inner.depth ≤ whole.depth) :
    ∃ tokens read, readExpression limits inner.print = .ok (tokens, read) ∧
      read.unplaced = inner.unplaced := by
  obtain ⟨short, scanned, parsed⟩ := (readExpression_ok_iff _ _ _ _).mp accepted
  obtain ⟨_, _, shallow⟩ := (Chain.parse_ok_iff _ _ _ _).mp parsed
  obtain ⟨_, symbols⟩ := symbols_of_accepted accepted
  have known := ((Token.scan_ok_iff _ _).mp scanned).1
  have lexemes : ∀ lexeme, .number lexeme ∈ inner.symbols → Token.IsLexeme lexeme :=
    fun lexeme member => Token.isLexeme_of_mem_symbols known (symbols ▸ inside.subset member)
  have shorter : byteLength inner.print ≤ byteLength text := by
    obtain ⟨before, after, split⟩ := inside
    rw [← Token.flatMap_text_symbols text, ← symbols, ← split]
    simp only [List.flatMap_append, byteLength_append, Chain.print]
    omega
  exact readExpression_print wellFormed lexemes (shorter.trans short) (depth.trans shallow)

/-! ## Accounts of texts -/

theorem explain_of_leaves {limits : Limits} {text : List Char} {tokens : List Token}
    {chain : Expression} (accepted : readExpression limits text = .ok (tokens, chain))
    {value : Decimal} {stored : List Decimal} {lines : List (List Char)}
    (leaves : Run.Leaves { steps := some #[], journal := { filter := .off } } (Run.evaluate chain)
      value stored lines) :
    ∃ explanation, explain limits text = .ok explanation ∧ explanation.expression = chain ∧
      explanation.value = value ∧ explanation.store.toList = stored ∧
      explanation.trace.steps = lines := by
  cases ran : (Run.evaluate chain).run.run { steps := some #[], journal := { filter := .off } } with
  | mk answer later =>
    obtain ⟨answered, store, noted⟩ := leaves
    rw [ran] at answered store noted
    obtain rfl : answer = .ok value := answered
    obtain ⟨store', steps, journal⟩ := later
    cases steps with
    | none => cases noted
    | some steps =>
      refine ⟨⟨value, tokens, chain, steps.toList, store'⟩, ?_, rfl, rfl, store, ?_⟩
      · unfold explain explainIn
        simp only [accepted, ran]
        rfl
      · exact Option.some.inj noted

def Part.ofExplanation (operand : Operand) (alone : Explanation) : Part :=
  ⟨operand, alone.value, alone.store.toList, alone.trace.steps⟩

theorem Chain.Leaves.raised_zero {chain : Expression} {value : Decimal} {stored : List Decimal}
    {lines : List (List Char)} (leaves : chain.Leaves value stored lines) :
    chain.Leaves value stored (lines.map (Store.raiseMarkers 0)) := by
  intro other same progress
  have raised : (lines.map (Store.raiseMarkers 0)).map (Store.raiseMarkers progress.store.size) =
      lines.map (Store.raiseMarkers progress.store.size) := by
    rw [List.map_map]
    exact List.map_congr_left fun line _ => Store.raiseMarkers_raiseMarkers 0 _ line
  rw [raised]
  exact leaves other same progress

theorem not_mem_print_of_accepted {limits : Limits} {text : List Char} {tokens : List Token}
    {chain : Expression} (accepted : readExpression limits text = .ok (tokens, chain)) :
    chain.print = text ∧ '#' ∉ text := by
  obtain ⟨_, scanned, _⟩ := (readExpression_ok_iff _ _ _ _).mp accepted
  obtain ⟨_, symbols⟩ := symbols_of_accepted accepted
  refine ⟨?_, fun member => ?_⟩
  · rw [Chain.print, symbols, Token.flatMap_text_symbols]
  · have known := ((Token.scan_ok_iff _ _).mp scanned).1 '#' member
    cases known

/-- The text of an operand has an account of its own, which is what the operand leaves. -/
theorem exists_explanation {limits : Limits} {text : List Char} {tokens : List Token}
    {chain : Expression} (accepted : readExpression limits text = .ok (tokens, chain))
    {operand : Operand} (inside : operand ∈ chain.operands) {value : Decimal}
    (came : operand.outcome = .ok (.ok value)) :
    ∃ alone, explain limits operand.alone.print = .ok alone ∧
      (Part.ofExplanation operand alone).Alone := by
  have wellFormed := (symbols_of_accepted accepted).1
  have length := ((Chain.wellFormed_iff chain).mp wellFormed).1
  have among : operand.alone.symbols <:+: chain.symbols :=
    operand.infix_alone.trans (chain.infix_symbols length operand inside)
  have depth : operand.alone.depth ≤ chain.depth :=
    operand.depth_alone_le.trans ((chain.depth_le_iff _).mp (Nat.le_refl _) operand inside)
  have innerWellFormed := (wellFormed.operand inside).alone
  obtain ⟨innerTokens, read, innerAccepted, unplaced⟩ :=
    readExpression_inside accepted innerWellFormed among depth
  -- what is inside the parentheses is a chain of the same value, and leaves something
  have settled := Operand.outcome_alone came
  have group : (Operand.group operand.alone).outcome = .ok (.ok value) := by
    rw [Operand.outcome_group, settled]
    rfl
  have shown : '#' ∉ (Operand.group operand.alone).symbols.flatMap Symbol.text := by
    obtain ⟨print, plain⟩ := not_mem_print_of_accepted accepted
    rw [Operand.mem_text_group_iff]
    exact fun member => plain (print ▸ Chain.mem_print_of_inside among member)
  obtain ⟨⟨_, _, stored, lines⟩, rfl, rfl, leaves⟩ := Operand.exists_part
    (.group operand.alone) ((Operand.wellFormed_group _).mpr innerWellFormed) shown group
  obtain ⟨alone, explained, _, same, store, steps⟩ :=
    explain_of_leaves innerAccepted (leaves read unplaced _)
  refine ⟨alone, explained, ?_⟩
  cases operand with
  | literal lexeme position =>
    rw [Part.ofExplanation, same]
    exact Except.ok.inj came
  | group inner =>
    rw [Part.ofExplanation, same, store, steps]
    exact Chain.Leaves.raised_zero leaves

/-- The account of a text, from those of the texts inside its parentheses. What each of them leaves
comes first, one after the other, and each time its value and the line that says so; then the first
operand with the head minus applied, unless the chain is a lone literal; then the line with all
markers, if there is an operator and a marker; then the reductions of this line. -/
theorem explain_composes {limits : Limits} {text : List Char} {whole : Explanation}
    (explained : explain limits text = .ok whole) :
    whole.expression.print = text ∧
    ∃ (first : Part) (rest : List Part) (level : FlatLevel),
      (first :: rest).map Part.operand = whole.expression.operands ∧
      (∀ part ∈ first :: rest, ∃ alone, explain limits part.operand.alone.print = .ok alone ∧
        part = .ofExplanation part.operand alone) ∧
      level = Part.level whole.expression 0 first rest ∧
      whole.store.toList = Part.allStored (first :: rest) ++ level.stored ∧
      whole.trace.steps = Part.allNoted 0 (first :: rest) ++
        (level.negationSteps ++ level.rewritingSteps ++ level.reduction.steps).map Step.print ∧
      level.reduction.outcome = .ok whole.value := by
  cases accepted : readExpression limits text with
  | error error =>
    rw [explain_of_refused accepted] at explained
    cases explained
  | ok result =>
    obtain ⟨tokens, chain⟩ := result
    have came := map_value_explain accepted
    rw [explained] at came
    change Except.ok whole.value = chain.outcome at came
    have members : ∀ operand ∈ chain.operands, ∃ part : Part, part.operand = operand ∧
        (part.Alone ∧ ∃ alone, explain limits part.operand.alone.print = .ok alone ∧
          part = .ofExplanation part.operand alone) := by
      intro operand inside
      obtain ⟨value, had⟩ := Chain.outcome_of_mem came.symm inside
      obtain ⟨alone, innerExplained, holds⟩ := exists_explanation accepted inside had
      exact ⟨.ofExplanation operand alone, rfl, holds, alone, innerExplained, rfl⟩
    obtain ⟨parts, operands, all⟩ := exists_map_eq members
    have length := ((Chain.wellFormed_iff chain).mp (symbols_of_accepted accepted).1).1
    cases parts with
    | nil =>
      rw [← operands] at length
      cases length
    | cons first rest =>
      have alone : ∀ part ∈ first :: rest, part.Alone := fun part inside => (all part inside).1
      obtain ⟨other, again, rfl, _, store, steps⟩ := explain_of_leaves accepted
        (Part.evaluate_leaves operands alone came.symm rfl _)
      rw [explained] at again
      cases again
      have reduced := Part.outcome_reduction operands alone 0
      rw [← came] at reduced
      exact ⟨(not_mem_print_of_accepted accepted).1, first, rest, _, operands,
        fun part inside => (all part inside).2, rfl, store, steps, reduced⟩

def negatedProductLines : List (List Char) :=
  ["1 + 2 = 3".toList, "#0 = (1+2) = 3".toList, "#1 = (4) = 4".toList, "=> 3-#1".toList,
    "3 - 4 = -1".toList, "#2 = (3-(4)) = -1".toList, "#3 = -#0 = -3".toList, "=> #3*#2".toList,
    "-3 * -1 = 3".toList]

/-- Of the second group they have the lines of `3-(4)`, whose marker counts from the value of the
first group. -/
theorem explain_composes_negatedProduct :
    ∃ (whole alone : Explanation) (first second : Part) (level : FlatLevel),
      explain {} "-(1+2)*(3-(4))".toList = .ok whole ∧
      explain {} "3-(4)".toList = .ok alone ∧ second = .ofExplanation second.operand alone ∧
      alone.trace.steps = ["#0 = (4) = 4".toList, "=> 3-#0".toList, "3 - 4 = -1".toList] ∧
      whole.store.toList = Part.allStored [first, second] ++ level.stored ∧
      whole.store.toList = [⟨false, 3, 0⟩, ⟨false, 4, 0⟩, ⟨true, 1, 0⟩, ⟨true, 3, 0⟩] ∧
      whole.trace.steps = Part.allNoted 0 [first, second] ++
        (level.negationSteps ++ level.rewritingSteps ++ level.reduction.steps).map Step.print ∧
      whole.trace.steps = negatedProductLines := by
  have computed : (fun whole => (whole.expression.operands.map (·.alone.print),
      whole.store.toList, whole.trace.steps)) <$> explain {} "-(1+2)*(3-(4))".toList =
        .ok (["1+2".toList, "3-(4)".toList],
          [⟨false, 3, 0⟩, ⟨false, 4, 0⟩, ⟨true, 1, 0⟩, ⟨true, 3, 0⟩], negatedProductLines) := by
    decide +kernel
  have inner : (·.trace.steps) <$> explain {} "3-(4)".toList =
      .ok ["#0 = (4) = 4".toList, "=> 3-#0".toList, "3 - 4 = -1".toList] := by
    decide +kernel
  obtain ⟨whole, explained, same⟩ := Except.map_eq_ok_iff.mp computed
  obtain ⟨texts, store, lines⟩ := by simpa only [Prod.mk.injEq] using same
  obtain ⟨_, first, rest, level, operands, accounts, _, stored, noted, _⟩ :=
    explain_composes explained
  rw [← operands, List.map_map] at texts
  obtain ⟨_, others⟩ := List.cons.inj texts
  obtain ⟨second, last, rfl, second_text, none⟩ := List.map_eq_cons_iff.mp others
  obtain rfl := List.map_eq_nil_iff.mp none
  obtain ⟨alone, alone_explained, account⟩ := accounts second (by simp)
  change second.operand.alone.print = _ at second_text
  rw [second_text] at alone_explained
  rw [alone_explained] at inner
  exact ⟨whole, alone, first, second, level, explained, alone_explained, account,
    Except.ok.inj inner, stored, store, noted, lines⟩

end ExactCalc
