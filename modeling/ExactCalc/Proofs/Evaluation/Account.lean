import ExactCalc.Proofs.Chain.Unplaced
import ExactCalc.Proofs.Evaluation.Additions
import ExactCalc.Proofs.Evaluation.Marker

/-! What an evaluation leaves behind: the values that it stores and the lines that it notes.

Both come after what was there before, and depend on it in one way only: the markers in the lines
count from the number of values stored before. So what the groups of a level leave follows from what
each of them leaves alone, one after the other, and then comes what the level itself leaves.
-/

set_option autoImplicit false

namespace ExactCalc

def Progress.lines? (progress : Progress) : Option (List (List Char)) :=
  progress.steps.map fun steps => steps.toList.map Step.print

namespace Progress

theorem lines?_after (progress : Progress) (stored : List Decimal) (steps : List Step) :
    (progress.after stored steps).lines? = progress.lines?.map (· ++ steps.map Step.print) := by
  have noted : (progress.after stored steps).steps = progress.steps.map (· ++ steps.toArray) :=
    progress.steps_noteAll steps
  rw [lines?, noted, lines?]
  cases progress.steps <;> simp

end Progress

namespace Run

variable {α β : Type} {progress : Progress}

/-- From this progress the run comes to the answer, after storing the values and noting the
lines. -/
structure Leaves (progress : Progress) (run : Run α) (answer : α) (stored : List Decimal)
    (lines : List (List Char)) : Prop where
  answered : (run.run.run progress).1 = .ok answer
  store_eq : (run.run.run progress).2.store.toList = progress.store.toList ++ stored
  lines_eq : (run.run.run progress).2.lines? = progress.lines?.map (· ++ lines)

theorem Leaves.of_does {run : Run α} {answer : α} {stored : List Decimal} {steps : List Step}
    (does : Does progress.store.toList run (.ok answer) stored steps) :
    Leaves progress run answer stored (steps.map Step.print) := by
  have ran := does progress rfl
  constructor
  · rw [ran]
  · rw [ran, Progress.toList_store_after]
  · rw [ran, Progress.lines?_after]

theorem Leaves.of_performs {run : Run α} {recorded : Recorded α} {answer : α}
    (performs : run.Performs recorded) (came : recorded.outcome = .ok answer) :
    Leaves progress run answer [] (recorded.steps.map Step.print) :=
  of_does (came ▸ .of_performs performs)

theorem Leaves.pure (answer : α) : Leaves progress (Pure.pure answer) answer [] [] :=
  of_performs (.pure answer) rfl

theorem Leaves.bind {first : Run α} {next : α → Run β} {a : α} {b : β}
    {stored more : List Decimal} {lines moreLines : List (List Char)}
    (leaves : Leaves progress first a stored lines)
    (rest : ∀ between : Progress, between.store.toList = progress.store.toList ++ stored →
      Leaves between (next a) b more moreLines) :
    Leaves progress (first >>= next) b (stored ++ more) (lines ++ moreLines) := by
  cases ran : first.run.run progress with
  | mk answer between =>
    obtain ⟨answered, store, noted⟩ := leaves
    rw [ran] at answered store noted
    obtain rfl : answer = .ok a := answered
    have rest := rest between store
    have whole : (first >>= next).run.run progress = (next a).run.run between := bind_run ran
    constructor
    · rw [whole, rest.answered]
    · rw [whole, rest.store_eq, store, List.append_assoc]
    · rw [whole, rest.lines_eq, noted]
      cases progress.lines? <;> simp

end Run

/-! ## Reductions -/

namespace Recorded

variable {α β : Type}

def OnlyReduces (recorded : Recorded α) : Prop :=
  ∀ step ∈ recorded.steps, ∃ a op b result, step = .reduction a op b result

theorem forall_steps_bind {holds : Step → Prop} {recorded : Recorded α} {next : α → Recorded β}
    (first : ∀ step ∈ recorded.steps, holds step)
    (rest : ∀ a, ∀ step ∈ (next a).steps, holds step) :
    ∀ step ∈ (recorded >>= next).steps, holds step := by
  obtain ⟨steps, outcome⟩ := recorded
  cases outcome with
  | error error => exact first
  | ok a => exact List.forall_mem_append.mpr ⟨first, rest a⟩

section

variable {holds : Step → Prop}
  (each : ∀ a op b result, op.apply a b = .ok result → holds (.reduction a op b result))

include each

theorem forall_steps_reduce (op : Operator) (a b : Decimal) :
    ∀ step ∈ (reduce op a b).steps, holds step := by
  unfold reduce
  split
  · exact nofun
  · rename_i result applied
    exact List.forall_mem_singleton.mpr (each a op b result applied)

theorem forall_steps_rewrite (kind : Operator → Bool) (line : Run.Series) :
    ∀ step ∈ (line.rewrite kind).steps, holds step := by
  fun_induction Run.Series.rewrite kind line with
  | case1 line _ => exact List.forall_mem_nil _
  | case2 line redex _ ih => exact forall_steps_bind (forall_steps_reduce each _ _ _) ih

theorem forall_steps_reduction (line : Run.Series) : ∀ step ∈ line.reduction.steps, holds step :=
  forall_steps_bind (forall_steps_rewrite each _ line) fun _ =>
    forall_steps_bind (forall_steps_rewrite each _ _) fun _ => nofun

end

theorem onlyReduces_reduction (line : Run.Series) : line.reduction.OnlyReduces :=
  forall_steps_reduction (fun a op b result _ => ⟨a, op, b, result, rfl⟩) line

end Recorded

/-! ## One level -/

/-- A level whose groups have come out, with the first operand apart. The next value will be stored
under the index. -/
structure FlatLevel where
  negated : Bool
  lone : Bool
  operators : List Operator
  index : Nat
  form : Form
  value : Decimal
  forms : List Form
  values : List Decimal

namespace FlatLevel

variable (level : FlatLevel)

/-- Whether the head minus makes a value to be stored. A lone literal stands for itself. -/
def storesNegation : Bool := level.negated && !level.lone

def first : Decimal := if level.negated then level.value.negate else level.value

def rewritten : List Form :=
  (if level.storesNegation then .stored level.index else level.form) :: level.forms

def stored : List Decimal := if level.storesNegation then [level.value.negate] else []

def negationSteps : List Step :=
  if level.storesNegation then [.negation level.index level.form level.value.negate] else []

def rewritingSteps : List Step :=
  if !level.operators.isEmpty && level.rewritten.any Form.isStored then
    [.rewriting level.rewritten level.operators]
  else []

def reduction : Recorded Decimal :=
  Run.Series.reduction ⟨level.first, level.operators.zip level.values⟩

def steps : List Step := level.negationSteps ++ level.rewritingSteps ++ level.reduction.steps

variable {before : List Decimal}

theorem noted_does (forms : List Form) (operators : List Operator)
    (values : List Decimal) :
    Run.Does before
      (if !operators.isEmpty && forms.any Form.isStored then
        do Run.note (.rewriting forms operators); pure values
      else pure values) (.ok values) []
      (if !operators.isEmpty && forms.any Form.isStored then [.rewriting forms operators]
        else []) := by
  split
  · exact (Run.Does.note _).bind (.pure values)
  · exact .pure values

theorem negateFirst_does (form : Form) (value : Decimal)
    (forms : List Form) (values : List Decimal) :
    Run.Does before (Run.negateFirst false (form :: forms) (value :: values))
      (.ok (.stored before.length :: forms, value.negate :: values)) [value.negate]
      [.negation before.length form value.negate] :=
  (Run.Does.store value.negate).bind ((Run.Does.note _).bind (.pure _))

theorem levelValues_does (index : level.index = before.length)
    (read : Form.values (.ofList before) (level.form :: level.forms) =
      .ok (level.value :: level.values)) :
    Run.Does before
      (Run.levelValues level.negated level.lone (level.form :: level.forms) level.operators)
      (.ok (level.first :: level.values)) level.stored
      (level.negationSteps ++ level.rewritingSteps) := by
  obtain ⟨negated, lone, operators, _, form, value, forms, values⟩ := level
  obtain rfl := index
  unfold Run.levelValues
  refine .get fun progress same => ?_
  have known : Form.values progress.store (form :: forms) = .ok (value :: values) := by
    rw [← read, ← same]
    rfl
  rw [known]
  cases negated with
  | false => exact noted_does (form :: forms) operators (value :: values)
  | true =>
    cases lone with
    | true => exact noted_does (form :: forms) operators (value.negate :: values)
    | false =>
      have whole : Run.Does before (_ >>= fun pair : List Form × List Decimal =>
          if !operators.isEmpty && pair.1.any Form.isStored then
            do Run.note (.rewriting pair.1 operators); pure pair.2
          else pure pair.2) _ _ _ :=
        (negateFirst_does form value forms values).bind
          (noted_does (.stored before.length :: forms) operators (value.negate :: values))
      exact whole

/-! ### The level where more values have been stored before -/

def raised (offset : Nat) : FlatLevel :=
  { level with
    index := offset + level.index
    form := level.form.raised offset
    forms := level.forms.map (Form.raised offset) }

theorem storesNegation_raised (offset : Nat) :
    (level.raised offset).storesNegation = level.storesNegation := rfl

theorem rewritten_raised (offset : Nat) :
    (level.raised offset).rewritten = level.rewritten.map (Form.raised offset) := by
  rw [rewritten, rewritten, storesNegation_raised]
  split <;> rfl

theorem reduction_raised (offset : Nat) :
    level.reduction.steps.map (Step.raised offset) = level.reduction.steps := by
  have each : ∀ step ∈ level.reduction.steps, step.raised offset = id step := by
    intro step member
    obtain ⟨a, op, b, result, rfl⟩ := Recorded.onlyReduces_reduction _ step member
    rfl
  rw [List.map_congr_left each, List.map_id]

theorem steps_raised (offset : Nat) :
    (level.raised offset).steps = level.steps.map (Step.raised offset) := by
  have negation : (level.raised offset).negationSteps =
      level.negationSteps.map (Step.raised offset) := by
    rw [negationSteps, negationSteps, storesNegation_raised]
    split <;> rfl
  have rewriting : (level.raised offset).rewritingSteps =
      level.rewritingSteps.map (Step.raised offset) := by
    have marker : (level.raised offset).rewritten.any Form.isStored =
        level.rewritten.any Form.isStored := by
      rw [rewritten_raised, List.any_map]
      congr 1
      funext form
      exact form.isStored_raised offset
    have operators : (level.raised offset).operators = level.operators := rfl
    rw [rewritingSteps, rewritingSteps, operators, marker, rewritten_raised]
    split <;> rfl
  have reduction : (level.raised offset).reduction = level.reduction := rfl
  rw [steps, negation, rewriting, reduction, ← level.reduction_raised offset, steps,
    List.map_append, List.map_append]

/-- No literal of the level looks like a marker. -/
structure Plain : Prop where
  form : level.form.Plain
  forms : ∀ form ∈ level.forms, form.Plain

variable {level}

theorem Plain.steps (plain : level.Plain) : ∀ step ∈ level.steps, step.Plain := by
  have negation : ∀ step ∈ level.negationSteps, step.Plain := by
    unfold negationSteps
    split
    · exact List.forall_mem_singleton.mpr plain.form
    · exact nofun
  have rewriting : ∀ step ∈ level.rewritingSteps, step.Plain := by
    unfold rewritingSteps
    split
    · refine List.forall_mem_singleton.mpr (List.forall_mem_cons.mpr ⟨?_, plain.forms⟩)
      split
      · exact nofun
      · exact plain.form
    · exact nofun
  have reduction : ∀ step ∈ level.reduction.steps, step.Plain := by
    intro step member
    obtain ⟨a, op, b, result, rfl⟩ := Recorded.onlyReduces_reduction _ step member
    trivial
  rw [FlatLevel.steps]
  simp only [List.forall_mem_append]
  exact ⟨⟨negation, rewriting⟩, reduction⟩

theorem Plain.lines_raised (plain : level.Plain) (offset : Nat) :
    (level.steps.map Step.print).map (Store.raiseMarkers offset) =
      (level.raised offset).steps.map Step.print := by
  rw [steps_raised, List.map_map, List.map_map]
  exact List.map_congr_left fun step member =>
    Step.raiseMarkers_print (plain.steps step member) offset

end FlatLevel

end ExactCalc
