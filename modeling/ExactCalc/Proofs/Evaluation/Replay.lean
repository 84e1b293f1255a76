import ExactCalc.Proofs.Chain.Sentences
import ExactCalc.Proofs.Evaluation.Parts

/-! The account of an evaluation can be replayed.

Replaying goes through the steps with the values stored so far. Each value has to be stored under
the next index, each marker shown has to be that of a value stored by then, a negation has to give
the opposite of what its form stands for, and a reduction the result of its operator. The steps of
an evaluation replay to the values that it leaves, and have one reduction for each operator.
-/

set_option autoImplicit false

namespace ExactCalc

/-! ## Replaying steps -/

namespace Form

def index? : Form → Option Nat
  | .literal _ => none
  | .stored index => some index

def excerpt : Form → List Char
  | .literal lexeme => lexeme
  | .stored _ => []

theorem storedValue_ok_iff {stored : List Decimal} {index : Nat} {value : Decimal} :
    storedValue (.ofList stored) index = .ok value ↔ stored[index]? = some value := by
  rw [storedValue, Store.get?_eq_getElem?, Store.toList_ofList]
  cases stored[index]? <;> simp

theorem index_lt_of_value {form : Form} {stored : List Decimal} {value : Decimal}
    (read : form.value (.ofList stored) = .ok value) :
    ∀ index ∈ form.index?, index < stored.length := by
  cases form with
  | literal lexeme => exact nofun
  | stored index =>
    rintro _ ⟨⟩
    exact (List.getElem?_eq_some_iff.mp (storedValue_ok_iff.mp read)).1

end Form

namespace Step

/-- The indices whose markers the step shows, apart from the one it stores a value under. -/
def uses : Step → List Nat
  | .group .. | .reduction .. => []
  | .negation _ form _ => form.index?.toList
  | .rewriting forms _ => forms.filterMap Form.index?

def introduction? : Step → Option (Decimal × Nat)
  | .group index _ value | .negation index _ value => some (value, index)
  | .rewriting .. | .reduction .. => none

def isReduction : Step → Bool
  | .reduction .. => true
  | _ => false

def excerpt : Step → List Char
  | .group _ expression _ => expression.print
  | .negation _ form _ => form.excerpt
  | .rewriting forms _ => forms.flatMap Form.excerpt
  | .reduction .. => []

/-- The values stored after the step, if it can be taken with these values stored before. -/
def replay? (stored : List Decimal) : Step → Option (List Decimal)
  | .group index _ value => if index = stored.length then some (stored ++ [value]) else none
  | .negation index form value =>
    if index = stored.length ∧ Decimal.negate <$> form.value (.ofList stored) = .ok value then
      some (stored ++ [value])
    else none
  | .rewriting forms _ =>
    if ∀ index ∈ forms.filterMap Form.index?, index < stored.length then some stored else none
  | .reduction a op b result => if op.apply a b = .ok result then some stored else none

variable {step : Step} {steps : List Step} {stored next : List Decimal}

theorem uses_lt_of_replay (replayed : step.replay? stored = some next) :
    ∀ index ∈ step.uses, index < stored.length := by
  cases step with
  | group index expression value => exact nofun
  | negation index form value =>
    obtain ⟨⟨_, opposite⟩, _⟩ := Option.ite_none_right_eq_some.mp replayed
    obtain ⟨a, read, _⟩ := Except.map_eq_ok_iff.mp opposite
    simpa [uses] using Form.index_lt_of_value read
  | rewriting forms operators => exact (Option.ite_none_right_eq_some.mp replayed).1
  | reduction a op b result => exact nofun

theorem zipIdx_of_replay (replayed : step.replay? stored = some next) :
    next.zipIdx = stored.zipIdx ++ step.introduction?.toList := by
  cases step with
  | group index expression value =>
    obtain ⟨rfl, same⟩ := Option.ite_none_right_eq_some.mp replayed
    simp [← Option.some.inj same, introduction?, List.zipIdx_append]
  | negation index form value =>
    obtain ⟨⟨rfl, _⟩, same⟩ := Option.ite_none_right_eq_some.mp replayed
    simp [← Option.some.inj same, introduction?, List.zipIdx_append]
  | rewriting forms operators =>
    obtain ⟨_, same⟩ := Option.ite_none_right_eq_some.mp replayed
    simp [← Option.some.inj same, introduction?]
  | reduction a op b result =>
    obtain ⟨_, same⟩ := Option.ite_none_right_eq_some.mp replayed
    simp [← Option.some.inj same, introduction?]

theorem apply_of_replay {a b result : Decimal} {op : Operator}
    (replayed : (reduction a op b result).replay? stored = some next) :
    op.apply a b = .ok result :=
  (Option.ite_none_right_eq_some.mp replayed).1

/-- The values stored after a replay are those stored before and those introduced, in order. -/
theorem zipIdx_of_replays (replayed : steps.foldlM replay? stored = some next) :
    next.zipIdx = stored.zipIdx ++ steps.filterMap introduction? := by
  induction steps generalizing stored with
  | nil =>
    obtain rfl : stored = next := Option.some.inj replayed
    simp
  | cons step rest ih =>
    rw [List.foldlM_cons] at replayed
    obtain ⟨between, first, later⟩ := Option.bind_eq_some_iff.mp replayed
    rw [ih later, zipIdx_of_replay first, List.append_assoc]
    cases same : step.introduction? <;> simp [same]

theorem exists_between_of_replays {earlier later : List Step}
    (replayed : (earlier ++ step :: later).foldlM replay? stored = some next) :
    ∃ between after, earlier.foldlM replay? stored = some between ∧
      step.replay? between = some after := by
  rw [List.foldlM_append] at replayed
  obtain ⟨between, first, rest⟩ := Option.bind_eq_some_iff.mp replayed
  rw [List.foldlM_cons] at rest
  obtain ⟨after, taken, _⟩ := Option.bind_eq_some_iff.mp rest
  exact ⟨between, after, first, taken⟩

theorem replays_of_reductions
    (each : ∀ step ∈ steps, ∃ a op b result, step = reduction a op b result ∧
      op.apply a b = .ok result) (stored : List Decimal) :
    steps.foldlM replay? stored = some stored := by
  induction steps with
  | nil => rfl
  | cons step rest ih =>
    obtain ⟨⟨a, op, b, result, rfl, applied⟩, later⟩ := List.forall_mem_cons.mp each
    rw [List.foldlM_cons, replay?, if_pos applied]
    exact ih later

end Step

/-! ## Runs that can be replayed -/

def Operand.operatorCount : Operand → Nat :=
  fold (fun _ _ => 0) (fun level => level.operands.sum + level.operators.length)

def Chain.operatorCount (chain : Expression) : Nat :=
  (chain.operands.map Operand.operatorCount).sum + chain.operators.length

@[simp] theorem Operand.operatorCount_group (chain : Expression) :
    (Operand.group chain).operatorCount = chain.operatorCount := by
  rw [Operand.operatorCount, Operand.fold_group]
  rfl

theorem Operand.sum_levels (operand : Operand) (level : Nat) :
    ((operand.levels level).map fun inner => inner.2.operators.length).sum =
      operand.operatorCount := by
  induction operand generalizing level with
  | literal lexeme position => rfl
  | group chain ih =>
    have each : chain.operands.map
        (fun operand => ((operand.levels (level + 1)).map fun inner =>
          inner.2.operators.length).sum) = chain.operands.map operatorCount :=
      List.map_congr_left fun operand inside => ih operand inside (level + 1)
    rw [levels_group, levelsAll_eq, operatorCount_group, Chain.operatorCount, ← each,
      List.map_cons, List.sum_cons, List.map_flatMap, List.flatMap_def, List.sum_flatten,
      List.map_map, Nat.add_comm]
    rfl

theorem Chain.sum_levels (chain : Expression) :
    (chain.levels.map fun inner => inner.2.operators.length).sum = chain.operatorCount := by
  have whole := Operand.sum_levels (.group chain) 0
  rwa [Operand.operatorCount_group] at whole

def Token.Spelled (text : List Char) : Prop := ∀ c ∈ text, Token.inAlphabet c = true

/-- With these values stored before, the steps can be replayed and add the values stored, and so
many of them are reductions. They and the forms show nothing of the text but symbols. -/
structure Replayable (before : List Decimal) (count : Nat) (forms : List Form)
    (stored : List Decimal) (steps : List Step) : Prop where
  replays : steps.foldlM Step.replay? before = some (before ++ stored)
  reductions : steps.countP Step.isReduction = count
  spelled : ∀ step ∈ steps, Token.Spelled step.excerpt
  forms_spelled : ∀ form ∈ forms, Token.Spelled form.excerpt

namespace Replayable

variable {before stored more : List Decimal} {count moreCount : Nat} {forms moreForms : List Form}
  {steps moreSteps : List Step}

theorem nil (before : List Decimal) : Replayable before 0 [] [] [] :=
  ⟨by rw [List.append_nil]; rfl, rfl, nofun, nofun⟩

theorem append (first : Replayable before count forms stored steps)
    (rest : Replayable (before ++ stored) moreCount moreForms more moreSteps) :
    Replayable before (count + moreCount) (forms ++ moreForms) (stored ++ more)
      (steps ++ moreSteps) where
  replays := by
    rw [List.foldlM_append, first.replays, ← List.append_assoc]
    exact rest.replays
  reductions := by rw [List.countP_append, first.reductions, rest.reductions]
  spelled := List.forall_mem_append.mpr ⟨first.spelled, rest.spelled⟩
  forms_spelled := List.forall_mem_append.mpr ⟨first.forms_spelled, rest.forms_spelled⟩

theorem withoutForms (replayable : Replayable before count forms stored steps) :
    Replayable before count [] stored steps :=
  { replayable with forms_spelled := nofun }

end Replayable

theorem Form.literal_replayable (lexeme : List Char) (spelled : Token.Spelled lexeme)
    (before : List Decimal) : Replayable before 0 [.literal lexeme] [] [] :=
  { Replayable.nil before with forms_spelled := List.forall_mem_singleton.mpr spelled }

theorem Step.group_replayable (chain : Expression) (spelled : Token.Spelled chain.print)
    (value : Decimal) (before : List Decimal) :
    Replayable before 0 [.stored before.length] [value] [.group before.length chain value] where
  replays := by
    rw [List.foldlM_cons, replay?, if_pos rfl]
    rfl
  reductions := rfl
  spelled := List.forall_mem_singleton.mpr spelled
  forms_spelled := List.forall_mem_singleton.mpr nofun

namespace FlatLevel

variable (level : FlatLevel) {before : List Decimal}

theorem negation_replayable (index : level.index = before.length)
    (read : level.form.value (.ofList before) = .ok level.value)
    (spelled : Token.Spelled level.form.excerpt) :
    Replayable before 0 [] level.stored level.negationSteps := by
  unfold stored negationSteps
  split
  · rw [index]
    have opposite : Decimal.negate <$> level.form.value (.ofList before) =
        .ok level.value.negate := by
      rw [read]
      rfl
    exact {
      replays := by
        rw [List.foldlM_cons, Step.replay?, if_pos ⟨rfl, opposite⟩]
        rfl
      reductions := rfl
      spelled := List.forall_mem_singleton.mpr spelled
      forms_spelled := nofun }
  · exact .nil before

theorem rewriting_replayable
    (spelled : ∀ form ∈ level.rewritten, Token.Spelled form.excerpt)
    (known : ∀ form ∈ level.rewritten, ∀ index ∈ form.index?, index < before.length) :
    Replayable before 0 [] [] level.rewritingSteps := by
  unfold rewritingSteps
  split
  · have all : ∀ index ∈ level.rewritten.filterMap Form.index?, index < before.length := by
      intro index member
      obtain ⟨form, inside, same⟩ := List.mem_filterMap.mp member
      exact known form inside index same
    exact {
      replays := by
        rw [List.foldlM_cons, Step.replay?, if_pos all, List.append_nil]
        rfl
      reductions := rfl
      spelled := List.forall_mem_singleton.mpr fun c member => by
        obtain ⟨form, inside, among⟩ := List.mem_flatMap.mp member
        exact spelled form inside c among
      forms_spelled := nofun }
  · exact .nil before

theorem rewritten_known (index : level.index = before.length)
    (known : ∀ form ∈ level.form :: level.forms, ∀ index ∈ form.index?, index < before.length) :
    ∀ form ∈ level.rewritten, ∀ index ∈ form.index?,
      index < (before ++ level.stored).length := by
  obtain ⟨head, tail⟩ := List.forall_mem_cons.mp known
  rw [List.length_append]
  refine List.forall_mem_cons.mpr ⟨?_, fun form member index found => ?_⟩
  · unfold stored
    split
    · rintro _ ⟨⟩
      rw [index]
      exact Nat.lt_succ_self _
    · exact head
  · exact Nat.lt_add_right _ (tail form member index found)

end FlatLevel

theorem Form.map_value_of_values {store : Store} {forms : List Form} {values : List Decimal}
    (read : Form.values store forms = .ok values) :
    forms.map (Form.value store) = values.map Except.ok := by
  refine Except.mapM_id_eq_ok ?_
  rw [List.mapM_map]
  exact read

theorem Chain.spelled_print_of_group {chain : Expression}
    (spelled : Token.Spelled ((Operand.group chain).symbols.flatMap Symbol.text)) :
    Token.Spelled chain.print := by
  intro c member
  refine spelled c ?_
  rw [Operand.symbols_group, List.flatMap_append, List.flatMap_cons]
  exact List.mem_append_left _ (List.mem_append_right _ member)

theorem Chain.spelled_of_mem {chain : Expression} (wellFormed : chain.WellFormed)
    (spelled : Token.Spelled chain.print) {operand : Operand} (inside : operand ∈ chain.operands) :
    Token.Spelled (operand.symbols.flatMap Symbol.text) := by
  have length := ((Chain.wellFormed_iff chain).mp wellFormed).1
  intro c member
  exact spelled c (Chain.mem_print_of_inside (chain.infix_symbols length operand inside) member)

namespace Run

variable {before : List Decimal}

theorem levelValues_adds_of_level (negated lone : Bool) (operators : List Operator)
    {forms : List Form} (some_form : forms ≠ [])
    {condition : List Decimal → List Decimal → List Step → Prop}
    (each : ∀ level : FlatLevel, level.index = before.length →
      level.form :: level.forms = forms →
      level.form.value (.ofList before) = .ok level.value →
      level.forms.map (Form.value (.ofList before)) = level.values.map .ok →
      condition (level.first :: level.values) level.stored
        (level.negationSteps ++ level.rewritingSteps)) :
    Adds before (levelValues negated lone forms operators) condition := by
  cases read : Form.values (.ofList before) forms with
  | error error =>
    have refused : Does before (levelValues negated lone forms operators) (.error error) [] [] := by
      refine .get fun progress same => ?_
      have failed : Form.values progress.store forms = .error error := by
        rw [← read, ← same]
        rfl
      rw [failed]
      exact .throw error
    exact .of_refused refused _
  | ok values =>
    have same := Form.map_value_of_values read
    cases forms with
    | nil => exact absurd rfl some_form
    | cons form forms =>
      obtain ⟨value, values, rfl, first, rest⟩ := List.map_eq_cons_iff.mp same.symm
      let level : FlatLevel :=
        ⟨negated, lone, operators, before.length, form, value, forms, values⟩
      exact .of_answered (level.levelValues_does rfl read) (each level rfl rfl first.symm rest.symm)

theorem levelValues_adds (negated lone : Bool) (operators : List Operator) {forms : List Form}
    (some_form : forms ≠ []) (spelled : ∀ form ∈ forms, Token.Spelled form.excerpt) :
    Adds before (levelValues negated lone forms operators) fun values stored steps =>
      values.length = forms.length ∧ Replayable before 0 [] stored steps := by
  refine levelValues_adds_of_level negated lone operators some_form ?_
  rintro level index rfl first rest
  obtain ⟨head, tail⟩ := List.forall_mem_cons.mp spelled
  have known : ∀ form ∈ level.form :: level.forms, ∀ index ∈ form.index?,
      index < before.length := by
    refine List.forall_mem_cons.mpr ⟨Form.index_lt_of_value first, fun member inside => ?_⟩
    obtain ⟨a, _, readable⟩ := List.mem_map.mp (rest ▸ List.mem_map_of_mem inside)
    exact Form.index_lt_of_value readable.symm
  have shown : ∀ form ∈ level.rewritten, Token.Spelled form.excerpt := by
    refine List.forall_mem_cons.mpr ⟨?_, tail⟩
    split
    · exact nofun
    · exact head
  have negation := level.negation_replayable index first head
  have rewriting := level.rewriting_replayable shown (level.rewritten_known index known)
  have length := congrArg List.length rest
  rw [List.length_map, List.length_map] at length
  refine ⟨congrArg (· + 1) length.symm, ?_⟩
  simpa using negation.append rewriting

theorem collapse_adds (values : List Decimal) (operators : List Operator)
    (length : values.length = operators.length + 1) :
    Adds before (collapse values operators) fun value stored steps =>
      Replayable before operators.length [] stored steps ∧
        (operators ≠ [] → ∃ a op b, steps.getLast? = some (.reduction a op b value)) := by
  cases values with
  | nil => cases length
  | cons first rest =>
    have many : rest.length = operators.length := Nat.succ.inj length
    let line : Series := ⟨first, operators.zip rest⟩
    have each : ∀ step ∈ line.reduction.steps, ∃ a op b result,
        step = .reduction a op b result ∧ op.apply a b = .ok result :=
      Recorded.forall_steps_reduction (fun a op b result applied =>
        ⟨a, op, b, result, rfl, applied⟩) line
    refine ⟨_, _, _, .of_performs (collapse_performs first rest operators), fun value came => ?_⟩
    obtain ⟨count, last⟩ := Series.steps_of_reduction came
    have operatorCount : line.rest.length = operators.length := by
      simp [line, many]
    refine ⟨?_, fun several => last ?_⟩
    · exact {
        replays := by
          rw [List.append_nil]
          exact Step.replays_of_reductions each before
        reductions := by
          rw [← operatorCount, ← count, List.countP_eq_length]
          intro step member
          obtain ⟨a, op, b, result, rfl, _⟩ := each step member
          rfl
        spelled := by
          intro step member
          obtain ⟨a, op, b, result, rfl, _⟩ := each step member
          exact nofun
        forms_spelled := nofun }
    · intro none
      have zero : line.rest.length = 0 := congrArg List.length none
      exact several (List.length_eq_zero_iff.mp (operatorCount.symm.trans zero))

theorem operandsFrom_adds (operands : List Operand)
    (each : ∀ member ∈ operands, ∀ before, Adds before (operand member) fun form stored steps =>
      Replayable before member.operatorCount [form] stored steps) (found : List Form) :
    Adds before (operandsFrom found operands) fun forms stored steps =>
      ∃ more, forms = found.reverse ++ more ∧ more.length = operands.length ∧
        Replayable before (operands.map Operand.operatorCount).sum more stored steps := by
  induction operands generalizing found before with
  | nil =>
    rw [operandsFrom]
    exact .of_answered (.pure _) ⟨[], (List.append_nil _).symm, rfl, .nil before⟩
  | cons first rest ih =>
    obtain ⟨head, tail⟩ := List.forall_mem_cons.mp each
    rw [operandsFrom]
    refine (head before).bind fun form stored steps replayable => ?_
    refine (ih tail (form :: found)).imp fun forms more moreSteps others => ?_
    obtain ⟨others, rfl, length, later⟩ := others
    refine ⟨form :: others, ?_, congrArg (· + 1) length, ?_⟩
    · rw [List.reverse_cons, List.append_assoc]
      rfl
    · rw [List.map_cons, List.sum_cons]
      exact replayable.append later

/-- The steps of a chain can be replayed, and if it has operators then the last step gives its
value. -/
theorem evaluate_adds_of_operands {chain : Expression} (wellFormed : chain.WellFormed)
    (each : ∀ member ∈ chain.operands, ∀ before, Adds before (operand member)
      fun form stored steps => Replayable before member.operatorCount [form] stored steps) :
    Adds before (evaluate chain) fun value stored steps =>
      Replayable before chain.operatorCount [] stored steps ∧
        (chain.operators ≠ [] → ∃ a op b, steps.getLast? = some (.reduction a op b value)) := by
  have length := ((Chain.wellFormed_iff chain).mp wellFormed).1
  rw [evaluate_eq_collapse, operandValues, bind_assoc]
  refine (operandsFrom_adds chain.operands each []).bind fun forms stored steps found => ?_
  obtain ⟨_, rfl, many, groups⟩ := found
  have some_form : forms ≠ [] := List.ne_nil_of_length_pos (by omega)
  refine (levelValues_adds _ _ _ some_form groups.forms_spelled).bind
    fun values negated levelSteps level => ?_
  refine (collapse_adds values _ (by omega)).imp fun value more reductions collapsed => ?_
  constructor
  · have whole := groups.withoutForms.append (level.2.append collapsed.1)
    simpa [Chain.operatorCount] using whole
  · intro several
    obtain ⟨a, op, b, last⟩ := collapsed.2 several
    exact ⟨a, op, b, by rw [List.getLast?_append, List.getLast?_append, last]; rfl⟩

theorem operand_adds (member : Operand) (wellFormed : member.WellFormed)
    (spelled : Token.Spelled (member.symbols.flatMap Symbol.text)) :
    Adds before (operand member) fun form stored steps =>
      Replayable before member.operatorCount [form] stored steps := by
  induction member, wellFormed using Operand.WellFormed.induct generalizing before with
  | literal lexeme position =>
    have same : lexeme = (Operand.literal lexeme position).symbols.flatMap Symbol.text := by
      simp [Symbol.text]
    rw [← same] at spelled
    rw [operand]
    exact .of_answered (.pure _) (Form.literal_replayable lexeme spelled before)
  | group chain wellFormed ih =>
    have inside := Chain.spelled_print_of_group spelled
    rw [operand, Operand.operatorCount_group]
    have evaluated := @evaluate_adds_of_operands before chain wellFormed
      fun operand member before => ih operand member (Chain.spelled_of_mem wellFormed inside member)
    refine evaluated.bind fun value stored steps replayed => ?_
    refine .of_answered (storeGroup_does chain value) ?_
    simpa using replayed.1.append (Step.group_replayable chain inside value _)

theorem evaluate_adds {chain : Expression} (wellFormed : chain.WellFormed)
    (spelled : Token.Spelled chain.print) :
    Adds before (evaluate chain) fun value stored steps =>
      Replayable before chain.operatorCount [] stored steps ∧
        (chain.operators ≠ [] → ∃ a op b, steps.getLast? = some (.reduction a op b value)) :=
  evaluate_adds_of_operands wellFormed fun operand inside _ =>
    operand_adds operand (wellFormed.operand inside)
      (Chain.spelled_of_mem wellFormed spelled inside)

end Run

end ExactCalc
