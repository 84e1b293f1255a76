import ExactCalc.Proofs.Evaluation.Composition
import ExactCalc.Proofs.Evaluation.GroupValue
import ExactCalc.Proofs.Evaluation.Replay

/-! The lines of an account, as they can be told apart and read.

A line that begins with a marker introduces it: it ends with the value stored under its index. A
line that begins with an arrow shows a level with its markers. Every other line is a reduction. So
what can be replayed step by step can be checked line by line.
-/

set_option autoImplicit false

namespace ExactCalc

namespace Line

def introduced? : List Char → Option Nat
  | '#' :: rest => some (digitsValue (rest.takeWhile Char.isDigit))
  | _ => none

/-- Whether the line begins with neither a marker nor an arrow. -/
def isReduction (line : List Char) : Bool :=
  (introduced? line).isNone && !"=> ".toList.isPrefixOf line

def markers : List Char → List Nat
  | [] => []
  | c :: rest =>
    if c = '#' then digitsValue (rest.takeWhile Char.isDigit) :: markers rest else markers rest

/-- The indices whose markers the line uses, apart from the one it introduces. -/
def used : List Char → List Nat
  | '#' :: rest => markers rest
  | line => markers line

/-! ## Markers in a text -/

open Store

theorem markers_append {text : List Char} (plain : '#' ∉ text) (rest : List Char) :
    markers (text ++ rest) = markers rest := by
  induction text with
  | nil => rfl
  | cons c text ih =>
    obtain ⟨first, others⟩ := not_or.mp (mt List.mem_cons.mpr plain)
    rw [List.cons_append, markers, if_neg (Ne.symm first), ih others]

theorem markers_of_plain {text : List Char} (plain : '#' ∉ text) : markers text = [] := by
  have whole := markers_append plain []
  rwa [List.append_nil] at whole

theorem not_mem_toDigits (index : Nat) : '#' ∉ Nat.toDigits 10 index := fun member => by
  have digit := allDigits_toDigits index _ member
  cases digit

theorem markers_marker (index : Nat) {rest : List Char} (ends : EndsMarker rest) :
    markers (marker index ++ rest) = index :: markers rest := by
  rw [marker, List.cons_append, markers, if_pos rfl,
    takeWhile_digits (allDigits_toDigits index) ends, digitsValue_toDigits,
    markers_append (not_mem_toDigits index)]

theorem introduced?_marker (index : Nat) {rest : List Char} (ends : EndsMarker rest) :
    introduced? (marker index ++ rest) = some index := by
  rw [marker, List.cons_append, introduced?, takeWhile_digits (allDigits_toDigits index) ends,
    digitsValue_toDigits]

theorem used_marker (index : Nat) (rest : List Char) :
    used (marker index ++ rest) = markers rest := by
  rw [marker, List.cons_append, used, markers_append (not_mem_toDigits index)]

theorem introduced?_of_head {line : List Char} (other : line.head? ≠ some '#') :
    introduced? line = none := by
  unfold introduced?
  split
  · exact absurd rfl other
  · rfl

theorem used_of_head {line : List Char} (other : line.head? ≠ some '#') :
    used line = markers line := by
  unfold used
  split
  · exact absurd rfl other
  · rfl

end Line

/-! ## The lines of steps -/

open Line Store

theorem Token.Spelled.not_mem {text : List Char} (spelled : Token.Spelled text) {c : Char}
    (foreign : Token.inAlphabet c = false) : c ∉ text := fun member => by
  rw [spelled c member] at foreign
  cases foreign

theorem Token.spelled_toDigits (number : Nat) : Token.Spelled (Nat.toDigits 10 number) := by
  intro c member
  have digit := allDigits_toDigits number c member
  simp only [inAlphabet, isLiteralChar, digit, Bool.true_or]

theorem Store.not_mem_marker {c : Char} (foreign : Token.inAlphabet c = false) (other : c ≠ '#')
    (index : Nat) : c ∉ marker index :=
  List.not_mem_cons_of_ne_of_not_mem other ((Token.spelled_toDigits index).not_mem foreign)

theorem Form.markers_print {form : Form} (spelled : Token.Spelled form.excerpt)
    {rest : List Char} (ends : EndsMarker rest) :
    markers (form.print ++ rest) = form.index?.toList ++ markers rest := by
  cases form with
  | literal lexeme => exact markers_append (spelled.not_mem rfl) rest
  | stored index => exact markers_marker index ends

theorem Form.not_mem_print {form : Form} (spelled : Token.Spelled form.excerpt) {c : Char}
    (foreign : Token.inAlphabet c = false) (other : c ≠ '#') : c ∉ form.print := by
  cases form with
  | literal lexeme => exact spelled.not_mem foreign
  | stored index => exact Store.not_mem_marker foreign other index

namespace Step

theorem markers_series {pairs : List (Operator × Form)}
    (spelled : ∀ pair ∈ pairs, Token.Spelled pair.2.excerpt) :
    markers (pairs.flatMap fun (op, form) => op.symbol :: form.print) =
      pairs.filterMap fun pair => pair.2.index? := by
  induction pairs with
  | nil => rfl
  | cons pair rest ih =>
    obtain ⟨op, form⟩ := pair
    obtain ⟨first, others⟩ := List.forall_mem_cons.mp spelled
    rw [List.flatMap_cons, List.cons_append, markers, if_neg op.symbol_ne,
      Form.markers_print first (endsMarker_series rest), ih others]
    cases same : form.index? <;> simp [same]

theorem markers_printForms_subset {forms : List Form}
    (spelled : ∀ form ∈ forms, Token.Spelled form.excerpt) (operators : List Operator) :
    markers (printForms forms operators) ⊆ forms.filterMap Form.index? := by
  cases forms with
  | nil => exact List.nil_subset _
  | cons first rest =>
    obtain ⟨head, tail⟩ := List.forall_mem_cons.mp spelled
    have members : ∀ pair ∈ operators.zip rest, Token.Spelled pair.2.excerpt :=
      fun pair member => tail _ (List.of_mem_zip member).2
    rw [printForms, Form.markers_print head (endsMarker_series _), markers_series members]
    intro index member
    rcases List.mem_append.mp member with early | late
    · exact List.mem_filterMap.mpr ⟨first, List.mem_cons_self, Option.mem_toList.mp early⟩
    · obtain ⟨pair, inside, same⟩ := List.mem_filterMap.mp late
      exact List.mem_filterMap.mpr
        ⟨pair.2, List.mem_cons_of_mem _ (List.of_mem_zip inside).2, same⟩

/-- The line of a step that stores a value ends with this value, and the rest of it is told apart by
the equals signs around it. -/
theorem print_of_introduction {step : Step} (spelled : Token.Spelled step.excerpt)
    {value : Decimal} {index : Nat} (introduces : step.introduction? = some (value, index)) :
    ∃ shown, '=' ∉ shown ∧ step.print =
      marker index ++ " = ".toList ++ shown ++ " = ".toList ++ value.print := by
  cases step with
  | group index expression value =>
    cases introduces
    refine ⟨'(' :: expression.print ++ [')'], ?_, ?_⟩
    · have inside : '=' ∉ expression.print := spelled.not_mem rfl
      simp [inside]
    · simp [print]
  | negation index form value =>
    cases introduces
    refine ⟨'-' :: form.print, ?_, ?_⟩
    · have inside : '=' ∉ form.print := Form.not_mem_print spelled rfl (by decide)
      simp [inside]
    · simp [print]
  | rewriting forms operators => cases introduces
  | reduction a op b result => cases introduces

theorem exists_head_of_reduction (a : Decimal) (op : Operator) (b result : Decimal) :
    ∃ c rest, (reduction a op b result).print = c :: rest ∧ Token.inAlphabet c = true := by
  have some_text : a.print ≠ [] := by
    have unsigned := a.magnitude.isLexeme_print.1
    rw [Decimal.print]
    split
    · exact List.cons_ne_nil _ _
    · exact unsigned
  obtain ⟨c, rest, same⟩ := List.exists_cons_of_ne_nil some_text
  refine ⟨c, rest ++ [' ', op.symbol, ' '] ++ b.print ++ " = ".toList ++ result.print, ?_, ?_⟩
  · rw [print, same]
    rfl
  · exact a.inAlphabet_of_mem_print c (same ▸ List.mem_cons_self)

theorem introduced?_print {step : Step} (spelled : Token.Spelled step.excerpt) :
    introduced? step.print = step.introduction?.map Prod.snd := by
  cases introduces : step.introduction? with
  | some pair =>
    obtain ⟨value, index⟩ := pair
    obtain ⟨shown, _, line⟩ := print_of_introduction spelled introduces
    rw [line, List.append_assoc, List.append_assoc, List.append_assoc]
    exact introduced?_marker index (endsMarker_cons rfl _)
  | none =>
    cases step with
    | group index expression value => cases introduces
    | negation index form value => cases introduces
    | rewriting forms operators => rfl
    | reduction a op b result =>
      refine introduced?_of_head fun head => ?_
      exact plain_reduction a op b result (List.mem_of_mem_head? head)

theorem isReduction_print {step : Step} (spelled : Token.Spelled step.excerpt) :
    Line.isReduction step.print = step.isReduction := by
  rw [Line.isReduction, introduced?_print spelled]
  cases step with
  | group index expression value => rfl
  | negation index form value => rfl
  | rewriting forms operators => rfl
  | reduction a op b result =>
    obtain ⟨c, rest, line, symbol⟩ := exists_head_of_reduction a op b result
    have other : c ≠ '=' := by
      rintro rfl
      cases symbol
    rw [line]
    simp [introduction?, isReduction, List.isPrefixOf, Ne.symm other]

theorem used_print_subset {step : Step} (spelled : Token.Spelled step.excerpt) :
    used step.print ⊆ step.uses := by
  cases step with
  | group index expression value =>
    have tail : '#' ∉ " = (".toList ++ expression.print ++ ") = ".toList ++ value.print := by
      have inside : '#' ∉ expression.print := spelled.not_mem rfl
      simp [inside, value.not_mem_print]
    rw [print, List.append_assoc, List.append_assoc, List.append_assoc, used_marker]
    rw [List.append_assoc, List.append_assoc] at tail
    rw [markers_of_plain tail]
    exact List.nil_subset _
  | negation index form value =>
    have ends : EndsMarker (" = ".toList ++ value.print) := endsMarker_cons rfl _
    have tail : '#' ∉ " = ".toList ++ value.print := by simp [value.not_mem_print]
    rw [print, List.append_assoc, List.append_assoc, List.append_assoc, used_marker,
      markers_append (by decide), Form.markers_print spelled ends, markers_of_plain tail,
      List.append_nil]
    exact List.Subset.refl _
  | rewriting forms operators =>
    have each : ∀ form ∈ forms, Token.Spelled form.excerpt := fun form inside c member =>
      spelled c (List.mem_flatMap.mpr ⟨form, inside, member⟩)
    rw [used_of_head (by simp [print]), print, markers_append (by decide)]
    exact markers_printForms_subset each operators
  | reduction a op b result =>
    have plain := plain_reduction a op b result
    rw [used_of_head (fun head => plain (List.mem_of_mem_head? head)), markers_of_plain plain]
    exact List.nil_subset _

end Step

/-! ## The account of a text -/

theorem evaluate_adds_of_accepted {limits : Limits} {text : List Char} {tokens : List Token}
    {chain : Expression} (accepted : readExpression limits text = .ok (tokens, chain)) :
    Run.Adds [] (Run.evaluate chain) fun value stored steps =>
      Replayable [] chain.operatorCount [] stored steps ∧
        (chain.operators ≠ [] → ∃ a op b, steps.getLast? = some (.reduction a op b value)) := by
  have spelled : Token.Spelled chain.print := by
    obtain ⟨_, scanned, _⟩ := (readExpression_ok_iff _ _ _ _).mp accepted
    rw [(not_mem_print_of_accepted accepted).1]
    exact ((Token.scan_ok_iff _ _).mp scanned).1
  exact Run.evaluate_adds (symbols_of_accepted accepted).1 spelled

theorem exists_replay_of_explain {limits : Limits} {text : List Char} {whole : Explanation}
    (explained : explain limits text = .ok whole) :
    Replayable [] whole.expression.operatorCount [] whole.store.toList whole.steps ∧
      (whole.expression.operators ≠ [] →
        ∃ a op b, whole.steps.getLast? = some (.reduction a op b whole.value)) :=
  holds_of_explained explained
    (evaluate_adds_of_accepted (readExpression_of_explained explained))

namespace Replayable

variable {before stored : List Decimal} {count : Nat} {forms : List Form} {steps : List Step}

theorem applied (replayable : Replayable before count forms stored steps)
    {a b result : Decimal} {op : Operator} (member : .reduction a op b result ∈ steps) :
    op.apply a b = .ok result := by
  obtain ⟨earlier, later, rfl⟩ := List.append_of_mem member
  obtain ⟨_, _, _, taken⟩ := Step.exists_between_of_replays replayable.replays
  exact Step.apply_of_replay taken

theorem countP_lines (replayable : Replayable before count forms stored steps) :
    (steps.map Step.print).countP Line.isReduction = count := by
  rw [List.countP_map, ← replayable.reductions]
  refine List.countP_congr fun step member => ?_
  rw [Function.comp, Step.isReduction_print (replayable.spelled step member)]

theorem exists_reduction_of_line (replayable : Replayable before count forms stored steps)
    {line : List Char} (member : line ∈ steps.map Step.print) (reduces : Line.isReduction line) :
    ∃ a op b result, line = (Step.reduction a op b result).print ∧ op.apply a b = .ok result := by
  obtain ⟨step, inside, rfl⟩ := List.mem_map.mp member
  rw [Step.isReduction_print (replayable.spelled step inside)] at reduces
  cases step with
  | reduction a op b result => exact ⟨a, op, b, result, rfl, replayable.applied inside⟩
  | group index expression value => cases reduces
  | negation index form value => cases reduces
  | rewriting forms operators => cases reduces

end Replayable

namespace Step

variable {steps : List Step} {stored : List Decimal}

theorem introduced_of_replays (replayed : steps.foldlM replay? [] = some stored)
    (spelled : ∀ step ∈ steps, Token.Spelled step.excerpt) :
    (steps.map print).filterMap introduced? = List.range stored.length := by
  have each : ∀ step ∈ steps, (introduced? ∘ print) step =
      step.introduction?.map Prod.snd := fun step member => introduced?_print (spelled step member)
  have indices : stored.zipIdx = steps.filterMap introduction? := zipIdx_of_replays replayed
  rw [List.filterMap_map, List.filterMap_congr each, ← List.map_filterMap, ← indices,
    List.zipIdx_map_snd, List.range_eq_range']

/-- A marker that a line uses is introduced by a line before it. -/
theorem introduced_of_used (replayed : steps.foldlM replay? [] = some stored)
    (spelled : ∀ step ∈ steps, Token.Spelled step.excerpt) {before after : List (List Char)}
    {line : List Char} (split : steps.map print = before ++ line :: after) {index : Nat}
    (uses : index ∈ used line) : index ∈ before.filterMap introduced? := by
  obtain ⟨earlier, rest, rfl, rfl, tail⟩ := List.map_eq_append_iff.mp split
  obtain ⟨step, later, rfl, rfl, rfl⟩ := List.map_eq_cons_iff.mp tail
  obtain ⟨between, _, first, taken⟩ := exists_between_of_replays replayed
  have known := uses_lt_of_replay taken index
    (used_print_subset (spelled step (List.mem_append_right _ List.mem_cons_self)) uses)
  rw [introduced_of_replays first fun step member =>
    spelled step (List.mem_append_left _ member)]
  exact List.mem_range.mpr known

theorem value_of_introduced (replayed : steps.foldlM replay? [] = some stored)
    (spelled : ∀ step ∈ steps, Token.Spelled step.excerpt) {line : List Char}
    (member : line ∈ steps.map print) {index : Nat} (introduces : introduced? line = some index) :
    ∃ shown value, stored[index]? = some value ∧ '=' ∉ shown ∧
      line = marker index ++ " = ".toList ++ shown ++ " = ".toList ++ value.print := by
  obtain ⟨step, inside, rfl⟩ := List.mem_map.mp member
  rw [introduced?_print (spelled step inside)] at introduces
  obtain ⟨⟨value, place⟩, same, rfl⟩ := Option.map_eq_some_iff.mp introduces
  obtain ⟨shown, plain, line⟩ := print_of_introduction (spelled step inside) same
  have among : (value, place) ∈ stored.zipIdx := by
    rw [show stored.zipIdx = _ from zipIdx_of_replays replayed]
    exact List.mem_filterMap.mpr ⟨step, inside, same⟩
  exact ⟨shown, value, List.mem_zipIdx_iff_getElem?.mp among, plain, line⟩

end Step

/-- The account of a text can be replayed line by line. Each reduction shows two values with an
operator and the result that the operator has on them; there is one reduction for each operator of
the text, and where the outermost chain has an operator, the last line is a reduction to the value
of the text. The stored values are introduced one after the other, each by one line that ends with
it. No line uses a marker that no line before it has introduced. -/
theorem explain_replays {limits : Limits} {text : List Char} {whole : Explanation}
    (explained : explain limits text = .ok whole) :
    (∀ line ∈ whole.trace.steps, Line.isReduction line → ∃ a op b result,
      line = (Step.reduction a op b result).print ∧ op.apply a b = .ok result) ∧
    whole.trace.steps.countP Line.isReduction =
      (whole.expression.levels.map fun inner => inner.2.operators.length).sum ∧
    (whole.expression.operators ≠ [] → ∃ a op b,
      whole.trace.steps.getLast? = some (Step.reduction a op b whole.value).print ∧
        op.apply a b = .ok whole.value) ∧
    whole.trace.steps.filterMap Line.introduced? = List.range whole.store.size ∧
    (∀ line ∈ whole.trace.steps, ∀ index, Line.introduced? line = some index →
      ∃ shown value, whole.store.get? index = some value ∧ '=' ∉ shown ∧
        line = Store.marker index ++ " = ".toList ++ shown ++ " = ".toList ++ value.print) ∧
    ∀ before line after, whole.trace.steps = before ++ line :: after →
      ∀ index ∈ Line.used line, index ∈ before.filterMap Line.introduced? := by
  obtain ⟨replayable, last⟩ := exists_replay_of_explain explained
  have replayed : whole.steps.foldlM Step.replay? [] = some whole.store.toList :=
    replayable.replays
  have lines : whole.trace.steps = whole.steps.map Step.print := rfl
  rw [lines]
  refine ⟨fun line member => replayable.exists_reduction_of_line member, ?_, ?_, ?_, ?_, ?_⟩
  · rw [replayable.countP_lines, Chain.sum_levels]
  · intro several
    obtain ⟨a, op, b, same⟩ := last several
    refine ⟨a, op, b, ?_, replayable.applied (List.mem_of_getLast? same)⟩
    rw [List.getLast?_map, same]
    rfl
  · rw [Step.introduced_of_replays replayed replayable.spelled, Store.size_eq_length]
  · intro line member index introduces
    obtain ⟨shown, value, found, plain, written⟩ :=
      Step.value_of_introduced replayed replayable.spelled member introduces
    exact ⟨shown, value, (whole.store.get?_eq_getElem? index).trans found, plain, written⟩
  · exact fun before line after split index =>
      Step.introduced_of_used replayed replayable.spelled split

theorem explain_replays_negatedProduct :
    ∃ whole : Explanation, explain {} "-(1+2)*3".toList = .ok whole ∧
      whole.trace.steps = ["1 + 2 = 3".toList, "#0 = (1+2) = 3".toList, "#1 = -#0 = -3".toList,
        "=> #1*3".toList, "-3 * 3 = -9".toList] ∧
      whole.trace.steps.countP Line.isReduction = 2 ∧
      whole.trace.steps.filterMap Line.introduced? = [0, 1] ∧
      0 ∈ Line.used "#1 = -#0 = -3".toList ∧
      0 ∈ ["1 + 2 = 3".toList, "#0 = (1+2) = 3".toList].filterMap Line.introduced? := by
  have computed : (fun whole => (whole.trace.steps, whole.store.size,
      (whole.expression.levels.map fun inner => inner.2.operators.length).sum)) <$>
        explain {} "-(1+2)*3".toList = .ok (["1 + 2 = 3".toList, "#0 = (1+2) = 3".toList,
          "#1 = -#0 = -3".toList, "=> #1*3".toList, "-3 * 3 = -9".toList], 2, 2) := by
    decide +kernel
  obtain ⟨whole, explained, same⟩ := Except.map_eq_ok_iff.mp computed
  obtain ⟨lines, size, operators⟩ := by simpa only [Prod.mk.injEq] using same
  obtain ⟨_, count, _, introduced, _, known⟩ := explain_replays explained
  have uses : 0 ∈ Line.used "#1 = -#0 = -3".toList := by decide +kernel
  rw [operators] at count
  rw [size] at introduced
  exact ⟨whole, explained, lines, count, introduced, uses, known _ _ _ lines 0 uses⟩

end ExactCalc
