import ExactCalc.Proofs.Evaluation.Bounds
import ExactCalc.Proofs.Evaluation.Literal
import ExactCalc.Proofs.Evaluation.Replay

/-! What all values of an evaluation have in common.

A property that literals have and that negation and the operators keep holds of every value that a
run stores, reduces or comes to, if it held of those stored before. The bounds on mantissa and scale
are such a property.
-/

set_option autoImplicit false

namespace ExactCalc

def Step.values : Step → List Decimal
  | .group _ _ value | .negation _ _ value => [value]
  | .rewriting .. => []
  | .reduction a _ b result => [a, b, result]

namespace Run.Series

theorem values_of_leftmost {kind : Operator → Bool} {first : Decimal}
    {rest : List (Operator × Decimal)} {redex : Redex}
    (found : leftmost? kind first rest = some redex) :
    values ⟨first, rest⟩ = redex.before.map Prod.fst ++
      redex.a :: redex.b :: redex.after.map Prod.snd := by
  induction rest generalizing first redex with
  | nil => cases found
  | cons pair rest ih =>
    obtain ⟨op, next⟩ := pair
    unfold leftmost? at found
    split at found
    · cases found
      rfl
    · obtain ⟨inner, later, rfl⟩ := Option.map_eq_some_iff.mp found
      exact congrArg (first :: ·) (ih later)

theorem values_replaced (redex : Redex) (result : Decimal) :
    (redex.replaced result).values =
      redex.before.map Prod.fst ++ result :: redex.after.map Prod.snd := by
  obtain ⟨before, a, op, b, after⟩ := redex
  induction before with
  | nil => rfl
  | cons pair before ih => exact congrArg (pair.1 :: ·) ih

end Run.Series

variable {property : Decimal → Prop}

/-! ## Reductions -/

namespace Recorded

variable {α β : Type} {answers : α → Prop} {results : β → Prop}

/-- The values of all steps have the property, and an answer has its own. -/
structure Keeps (property : Decimal → Prop) (answers : α → Prop)
    (recorded : Recorded α) : Prop where
  steps : ∀ step ∈ recorded.steps, ∀ value ∈ step.values, property value
  answer : ∀ a, recorded.outcome = .ok a → answers a

theorem Keeps.pure {a : α} (holds : answers a) :
    Keeps property answers (Pure.pure a : Recorded α) :=
  ⟨nofun, by rintro _ ⟨⟩; exact holds⟩

theorem Keeps.bind {recorded : Recorded α} {next : α → Recorded β}
    (first : recorded.Keeps property answers)
    (rest : ∀ a, answers a → (next a).Keeps property results) :
    (recorded >>= next).Keeps property results := by
  obtain ⟨steps, outcome⟩ := recorded
  cases outcome with
  | error error => exact ⟨first.steps, nofun⟩
  | ok a =>
    have later := rest a (first.answer a rfl)
    exact ⟨List.forall_mem_append.mpr ⟨first.steps, later.steps⟩, later.answer⟩

section

variable (keeps : Grammar.decimals.Keeps property)

include keeps

theorem reduce_keeps (op : Operator) {a b : Decimal} (left : property a) (right : property b) :
    (reduce op a b).Keeps property property := by
  unfold reduce
  split
  · exact ⟨nofun, nofun⟩
  · rename_i result applied
    have came := keeps.apply op a b result left right
      (Grammar.decimals_apply_eq_some_iff.mpr applied)
    refine ⟨List.forall_mem_singleton.mpr ?_, by rintro _ ⟨⟩; exact came⟩
    simp only [Step.values, List.forall_mem_cons]
    exact ⟨left, right, came, nofun⟩

theorem rewrite_keeps (kind : Operator → Bool) (line : Run.Series)
    (known : ∀ value ∈ line.values, property value) :
    (line.rewrite kind).Keeps property fun left => ∀ value ∈ left.values, property value := by
  fun_induction Run.Series.rewrite kind line with
  | case1 line _ => exact .pure known
  | case2 line redex found ih =>
    rw [show line.values = _ from Run.Series.values_of_leftmost found] at known
    simp only [List.forall_mem_append, List.forall_mem_cons] at known
    obtain ⟨before, left, right, after⟩ := known
    refine (reduce_keeps keeps redex.op left right).bind fun result came => ih result ?_
    rw [Run.Series.values_replaced]
    exact List.forall_mem_append.mpr ⟨before, List.forall_mem_cons.mpr ⟨came, after⟩⟩

theorem reduction_keeps (line : Run.Series) (known : ∀ value ∈ line.values, property value) :
    line.reduction.Keeps property property :=
  (rewrite_keeps keeps _ line known).bind fun terms products =>
    (rewrite_keeps keeps _ terms products).bind fun _ sums => .pure (sums _ List.mem_cons_self)

end

end Recorded

/-! ## Runs -/

/-- The values stored and those of the steps have the property. -/
structure AllKeep (property : Decimal → Prop) (stored : List Decimal)
    (steps : List Step) : Prop where
  stored : ∀ value ∈ stored, property value
  steps : ∀ step ∈ steps, ∀ value ∈ step.values, property value

theorem AllKeep.nil : AllKeep property [] [] := ⟨nofun, nofun⟩

theorem AllKeep.append {stored more : List Decimal} {steps moreSteps : List Step}
    (first : AllKeep property stored steps) (rest : AllKeep property more moreSteps) :
    AllKeep property (stored ++ more) (steps ++ moreSteps) :=
  ⟨List.forall_mem_append.mpr ⟨first.stored, rest.stored⟩,
    List.forall_mem_append.mpr ⟨first.steps, rest.steps⟩⟩

section

variable (keeps : Grammar.decimals.Keeps property) {before : List Decimal}

include keeps

theorem Form.value_keeps (known : ∀ value ∈ before, property value) {form : Form}
    {value : Decimal} (read : form.value (.ofList before) = .ok value) : property value := by
  cases form with
  | literal lexeme =>
    have number := (Form.value_literal_ok_iff lexeme value).mp read
    exact keeps.literal lexeme value (Grammar.decimals_literal_eq_some_iff.mpr number)
  | stored index => exact known value (List.mem_of_getElem? (Form.storedValue_ok_iff.mp read))

namespace FlatLevel

variable {level : FlatLevel}

theorem first_keeps (holds : property level.value) : property level.first := by
  unfold first
  split
  · exact keeps.negate _ holds
  · exact holds

theorem noted_keeps (holds : property level.value) :
    AllKeep property level.stored (level.negationSteps ++ level.rewritingSteps) := by
  have opposite : property level.value.negate := keeps.negate _ holds
  constructor
  · unfold stored
    split
    · exact List.forall_mem_singleton.mpr opposite
    · exact nofun
  · refine List.forall_mem_append.mpr ⟨?_, ?_⟩
    · unfold negationSteps
      split
      · exact List.forall_mem_singleton.mpr (List.forall_mem_singleton.mpr opposite)
      · exact nofun
    · unfold rewritingSteps
      split
      · exact List.forall_mem_singleton.mpr nofun
      · exact nofun

end FlatLevel

namespace Run

theorem levelValues_keeps (known : ∀ value ∈ before, property value) (negated lone : Bool)
    (operators : List Operator) {forms : List Form} (some_form : forms ≠ []) :
    Adds before (levelValues negated lone forms operators) fun values stored steps =>
      (∀ value ∈ values, property value) ∧ AllKeep property stored steps := by
  refine levelValues_adds_of_level negated lone operators some_form ?_
  rintro level _ rfl first rest
  have head : property level.value := Form.value_keeps keeps known first
  refine ⟨List.forall_mem_cons.mpr ⟨level.first_keeps keeps head, fun value inside => ?_⟩,
    level.noted_keeps keeps head⟩
  have readable : Except.ok value ∈ level.forms.map (Form.value (.ofList before)) := by
    rw [rest]
    exact List.mem_map_of_mem inside
  obtain ⟨form, _, read⟩ := List.mem_map.mp readable
  exact Form.value_keeps keeps known read

theorem collapse_keeps (values : List Decimal) (operators : List Operator)
    (holds : ∀ value ∈ values, property value) :
    Adds before (collapse values operators) fun value stored steps =>
      property value ∧ AllKeep property stored steps := by
  cases values with
  | nil => exact .of_refused (.throw _) _
  | cons first rest =>
    obtain ⟨head, tail⟩ := List.forall_mem_cons.mp holds
    have line : ∀ value ∈ Series.values ⟨first, operators.zip rest⟩, property value := by
      refine List.forall_mem_cons.mpr ⟨head, fun value member => ?_⟩
      obtain ⟨⟨op, _⟩, inside, rfl⟩ := List.mem_map.mp member
      exact tail _ (List.of_mem_zip inside).2
    have kept := Recorded.reduction_keeps keeps _ line
    exact ⟨_, _, _, .of_performs (collapse_performs first rest operators), fun value came =>
      ⟨kept.answer value came, nofun, kept.steps⟩⟩

omit keeps in
theorem operandsFrom_keeps (operands : List Operand)
    (each : ∀ member ∈ operands, ∀ before, (∀ value ∈ before, property value) →
      Adds before (operand member) fun _ stored steps => AllKeep property stored steps)
    (known : ∀ value ∈ before, property value) (found : List Form) :
    Adds before (operandsFrom found operands) fun forms stored steps =>
      forms.length = found.length + operands.length ∧ AllKeep property stored steps := by
  induction operands generalizing found before with
  | nil =>
    rw [operandsFrom]
    exact .of_answered (.pure _) ⟨List.length_reverse, .nil⟩
  | cons first rest ih =>
    obtain ⟨head, tail⟩ := List.forall_mem_cons.mp each
    rw [operandsFrom]
    refine (head before known).bind fun form stored steps kept => ?_
    refine (ih tail (List.forall_mem_append.mpr ⟨known, kept.stored⟩) (form :: found)).imp
      fun forms more moreSteps others => ⟨?_, kept.append others.2⟩
    rw [others.1, List.length_cons, List.length_cons]
    omega

theorem evaluate_keeps_of_operands {chain : Expression} (wellFormed : chain.WellFormed)
    (each : ∀ member ∈ chain.operands, ∀ before, (∀ value ∈ before, property value) →
      Adds before (operand member) fun _ stored steps => AllKeep property stored steps)
    (known : ∀ value ∈ before, property value) :
    Adds before (evaluate chain) fun value stored steps =>
      property value ∧ AllKeep property stored steps := by
  have length := ((Chain.wellFormed_iff chain).mp wellFormed).1
  rw [evaluate_eq_collapse, operandValues, bind_assoc]
  refine (operandsFrom_keeps chain.operands each known []).bind fun forms stored steps groups => ?_
  have some_form : forms ≠ [] := List.ne_nil_of_length_pos (by rw [groups.1]; omega)
  have grown := List.forall_mem_append.mpr ⟨known, groups.2.stored⟩
  refine (levelValues_keeps keeps grown _ _ _ some_form).bind fun values negated notes level => ?_
  refine (collapse_keeps keeps values _ level.1).imp fun value more reductions collapsed => ?_
  exact ⟨collapsed.1, groups.2.append (level.2.append collapsed.2)⟩

theorem operand_keeps (member : Operand) (wellFormed : member.WellFormed)
    (known : ∀ value ∈ before, property value) :
    Adds before (operand member) fun _ stored steps => AllKeep property stored steps := by
  induction member, wellFormed using Operand.WellFormed.induct generalizing before with
  | literal lexeme position =>
    rw [operand]
    exact .of_answered (.pure _) .nil
  | group chain wellFormed ih =>
    rw [operand]
    refine (evaluate_keeps_of_operands keeps wellFormed (fun operand inside before known =>
      ih operand inside known) known).bind fun value stored steps kept => ?_
    have noted : AllKeep property [value] [.group (before ++ stored).length chain value] :=
      ⟨List.forall_mem_singleton.mpr kept.1,
        List.forall_mem_singleton.mpr (List.forall_mem_singleton.mpr kept.1)⟩
    exact .of_answered (storeGroup_does chain value) (kept.2.append noted)

/-- All that an evaluation comes to, stores and shows has the property, if the values stored before
have it. -/
theorem evaluate_keeps {chain : Expression} (wellFormed : chain.WellFormed)
    (known : ∀ value ∈ before, property value) :
    Adds before (evaluate chain) fun value stored steps =>
      property value ∧ AllKeep property stored steps :=
  evaluate_keeps_of_operands keeps wellFormed (fun operand inside _ known =>
    operand_keeps keeps operand (wellFormed.operand inside) known) known

end Run

theorem explain_keeps {limits : Limits} {text : List Char} {whole : Explanation}
    (explained : explain limits text = .ok whole) :
    property whole.value ∧ AllKeep property whole.store.toList whole.steps :=
  have accepted := readExpression_of_explained explained
  holds_of_explained explained (Run.evaluate_keeps keeps (symbols_of_accepted accepted).1 nofun)

end

/-- The bounds on mantissa and scale hold of the value of an evaluation, of all values that it
stores, and of the operands and the result of each of its reductions. The operators and the negation
keep them, and a literal is read within them or not at all. -/
theorem explain_representable (limits : Limits) (text : List Char) :
    (∀ whole : Explanation, explain limits text = .ok whole →
      whole.value.Representable ∧ (∀ value ∈ whole.store.toList, value.Representable) ∧
      ∀ a op b result, .reduction a op b result ∈ whole.steps →
        a.Representable ∧ b.Representable ∧ result.Representable) ∧
    (∀ (op : Operator) (a b result : Decimal), a.Representable → b.Representable →
      op.apply a b = .ok result → result.Representable) ∧
    (∀ a : Decimal, a.Representable → a.negate.Representable) ∧
    ∀ lexeme result, Decimal.read lexeme = .ok result → result.Representable := by
  refine ⟨fun whole explained => ?_, fun _ _ _ _ => Operator.apply_representable,
    fun _ => Decimal.Representable.negate, fun _ _ => Decimal.read_representable⟩
  obtain ⟨value, kept⟩ := explain_keeps Grammar.decimals_keep_representable explained
  refine ⟨value, kept.stored, fun a op b result member => ?_⟩
  have all := kept.steps _ member
  simpa only [Step.values, List.forall_mem_cons, List.not_mem_nil, false_implies, implies_true,
    and_true] using all

theorem explain_representable_third :
    ∃ whole : Explanation, explain {} "-(1/3)".toList = .ok whole ∧
      whole.value = ⟨true, 3333333333333333333333333333, 28⟩ ∧ whole.value.Representable ∧
      whole.store.toList = [⟨false, 3333333333333333333333333333, 28⟩,
        ⟨true, 3333333333333333333333333333, 28⟩] ∧
      ∀ value ∈ whole.store.toList, value.Representable := by
  have computed : (fun whole => (whole.value, whole.store.toList)) <$>
      explain {} "-(1/3)".toList = .ok (⟨true, 3333333333333333333333333333, 28⟩,
        [⟨false, 3333333333333333333333333333, 28⟩,
          ⟨true, 3333333333333333333333333333, 28⟩]) := by
    decide +kernel
  obtain ⟨whole, explained, same⟩ := Except.map_eq_ok_iff.mp computed
  obtain ⟨value, stored⟩ := Prod.mk.inj same
  obtain ⟨within, storedWithin, _⟩ := (explain_representable {} "-(1/3)".toList).1 whole explained
  exact ⟨whole, explained, value, within, stored, storedWithin⟩

end ExactCalc
