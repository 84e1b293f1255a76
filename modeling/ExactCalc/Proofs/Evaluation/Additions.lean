import ExactCalc.Proofs.Evaluation.Rewriting
import ExactCalc.Proofs.Reading

/-! What a run adds to the progress that it starts from.

A run reads the values stored before it and nothing else. So these decide what it comes to, which
values it stores and which steps it notes, whether an account is kept or not and whatever the
journal admits. `Adds` says this of a run, together with a condition on what is added when the run
comes to an answer.
-/

set_option autoImplicit false

namespace ExactCalc

namespace Progress

def after (progress : Progress) (stored : List Decimal) (steps : List Step) : Progress :=
  { progress.noteAll steps with store := .ofList (progress.store.toList ++ stored) }

theorem noteAll_withStore (progress : Progress) (store : Store) (steps : List Step) :
    noteAll { progress with store } steps = { progress.noteAll steps with store } := by
  induction steps generalizing progress with
  | nil => rfl
  | cons step rest ih => exact ih ((Run.note step).run.run progress).2

theorem store_noteAll (progress : Progress) (steps : List Step) :
    (progress.noteAll steps).store = progress.store := by
  induction steps generalizing progress with
  | nil => rfl
  | cons step rest ih => exact ih _

@[simp] theorem toList_store_after (progress : Progress) (stored : List Decimal)
    (steps : List Step) :
    (progress.after stored steps).store.toList = progress.store.toList ++ stored := rfl

theorem after_nil (progress : Progress) (steps : List Step) :
    progress.after [] steps = progress.noteAll steps := by
  have same : Store.ofList progress.store.toList = (progress.noteAll steps).store := by
    rw [store_noteAll]
    rfl
  rw [after, List.append_nil, same]

theorem after_after (progress : Progress) (stored more : List Decimal)
    (steps moreSteps : List Step) :
    (progress.after stored steps).after more moreSteps =
      progress.after (stored ++ more) (steps ++ moreSteps) := by
  simp only [after, noteAll_withStore, noteAll_append, Store.toList_ofList, List.append_assoc]

theorem steps_noteAll (progress : Progress) (steps : List Step) :
    (progress.noteAll steps).steps = progress.steps.map (· ++ steps.toArray) := by
  induction steps generalizing progress with
  | nil => cases same : progress.steps <;> simp [noteAll, same]
  | cons step rest ih =>
    rw [noteAll, List.foldl_cons, ← noteAll, ih]
    change (progress.steps.map _).map _ = _
    cases progress.steps <;> simp

end Progress

namespace Run

variable {α β : Type} {before : List Decimal}

/-- With these values stored before, the run comes to the outcome, stores the values and notes the
steps. -/
def Does (before : List Decimal) (run : Run α) (outcome : Outcome α) (stored : List Decimal)
    (steps : List Step) : Prop :=
  ∀ progress : Progress, progress.store.toList = before →
    run.run.run progress = (outcome, progress.after stored steps)

theorem Does.of_performs {run : Run α} {recorded : Recorded α} (performs : run.Performs recorded) :
    Does before run recorded.outcome [] recorded.steps := by
  intro progress _
  rw [performs progress, Progress.after_nil]

theorem Does.pure (answer : α) : Does before (Pure.pure answer) (.ok answer) [] [] :=
  of_performs (.pure answer)

theorem Does.bind {first : Run α} {next : α → Run β} {a : α} {outcome : Outcome β}
    {stored more : List Decimal} {steps moreSteps : List Step}
    (does : Does before first (.ok a) stored steps)
    (rest : Does (before ++ stored) (next a) outcome more moreSteps) :
    Does before (first >>= next) outcome (stored ++ more) (steps ++ moreSteps) := by
  intro progress same
  have between : (progress.after stored steps).store.toList = before ++ stored := by
    rw [Progress.toList_store_after, same]
  have whole : (first >>= next).run.run progress =
      (next a).run.run (progress.after stored steps) := bind_run (does progress same)
  rw [whole, rest _ between, Progress.after_after]

theorem Does.refused {first : Run α} {next : α → Run β} {error : EvalError}
    {stored : List Decimal} {steps : List Step}
    (does : Does before first (.error error) stored steps) :
    Does before (first >>= next) (.error error) stored steps := by
  intro progress same
  rw [bind_run (does progress same)]
  rfl

theorem Does.note (step : Step) : Does before (Run.note step) (.ok ()) [] [step] := by
  intro progress _
  rw [Progress.after_nil]
  rfl

theorem Does.store (value : Decimal) :
    Does before (Run.store value) (.ok before.length) [value] [] := by
  rintro progress rfl
  have same : progress.store.add value = .ofList (progress.store.toList ++ [value]) := by
    rw [← Store.toList_add]
    rfl
  rw [Progress.after, ← same]
  rfl

theorem Does.get {next : Progress → Run α} {outcome : Outcome α} {stored : List Decimal}
    {steps : List Step}
    (does : ∀ progress : Progress, progress.store.toList = before →
      Does before (next progress) outcome stored steps) :
    Does before (MonadState.get >>= next) outcome stored steps :=
  fun progress same => does progress same progress same

theorem Does.throw (error : EvalError) :
    Does before (MonadExcept.throw error : Run α) (.error error) [] [] := by
  intro progress _
  rw [Progress.after_nil]
  rfl

theorem storeGroup_does (chain : Expression) (value : Decimal) :
    Does before
      (do
        let index ← Run.store value
        Run.note (.group index chain value)
        return Form.stored index)
      (.ok (.stored before.length)) [value] [.group before.length chain value] :=
  (Does.store value).bind ((Does.note _).bind (.pure _))

/-- With these values stored before, what the run does is settled, and if it comes to an answer then
the condition holds of the answer, the values stored and the steps noted. -/
def Adds (before : List Decimal) (run : Run α)
    (condition : α → List Decimal → List Step → Prop) : Prop :=
  ∃ outcome stored steps, Does before run outcome stored steps ∧
    ∀ answer, outcome = .ok answer → condition answer stored steps

theorem Adds.of_answered {run : Run α} {condition : α → List Decimal → List Step → Prop}
    {answer : α} {stored : List Decimal} {steps : List Step}
    (does : Does before run (.ok answer) stored steps)
    (holds : condition answer stored steps) : Adds before run condition := by
  refine ⟨_, _, _, does, ?_⟩
  rintro _ ⟨⟩
  exact holds

theorem Adds.of_refused {run : Run α} {error : EvalError} {stored : List Decimal}
    {steps : List Step} (does : Does before run (.error error) stored steps)
    (condition : α → List Decimal → List Step → Prop) : Adds before run condition :=
  ⟨_, _, _, does, nofun⟩

theorem Adds.imp {run : Run α} {condition other : α → List Decimal → List Step → Prop}
    (adds : Adds before run condition)
    (weaker : ∀ a stored steps, condition a stored steps → other a stored steps) :
    Adds before run other := by
  obtain ⟨outcome, stored, steps, does, holds⟩ := adds
  exact ⟨outcome, stored, steps, does, fun a came => weaker a stored steps (holds a came)⟩

theorem Adds.does {run : Run α} {condition : α → List Decimal → List Step → Prop}
    (adds : Adds before run condition) :
    Adds before run fun a stored steps => Does before run (.ok a) stored steps := by
  obtain ⟨outcome, stored, steps, does, _⟩ := adds
  refine ⟨outcome, stored, steps, does, ?_⟩
  rintro a rfl
  exact does

theorem Adds.bind {first : Run α} {next : α → Run β}
    {mid : α → List Decimal → List Step → Prop} {condition : β → List Decimal → List Step → Prop}
    (adds : Adds before first mid)
    (each : ∀ a stored steps, mid a stored steps → Adds (before ++ stored) (next a)
      fun b more moreSteps => condition b (stored ++ more) (steps ++ moreSteps)) :
    Adds before (first >>= next) condition := by
  obtain ⟨outcome, stored, steps, does, holds⟩ := adds
  cases outcome with
  | error error => exact ⟨_, _, _, does.refused, nofun⟩
  | ok a =>
    obtain ⟨outcome, more, moreSteps, rest, condition⟩ := each a stored steps (holds a rfl)
    exact ⟨_, _, _, does.bind rest, condition⟩

end Run

/-- The account of an accepted text is what its evaluation adds to an empty one, whatever the
journal admits. -/
theorem explainIn_of_adds {limits : Limits} {text : List Char} {tokens : List Token}
    {chain : Expression} (accepted : readExpression limits text = .ok (tokens, chain))
    {condition : Decimal → List Decimal → List Step → Prop}
    (adds : Run.Adds [] (Run.evaluate chain) condition) :
    ∃ (outcome : Outcome Decimal) (stored : List Decimal) (steps : List Step),
      (∀ journal, (explainIn limits text journal).1 =
        (fun value => ⟨value, tokens, chain, steps, .ofList stored⟩) <$> outcome) ∧
      ∀ value, outcome = .ok value → condition value stored steps := by
  obtain ⟨outcome, stored, steps, does, holds⟩ := adds
  refine ⟨outcome, stored, steps, fun journal => ?_, holds⟩
  let start : Progress := { steps := some #[], journal }
  have account : ((start.after stored steps).steps.getD #[]).toList = steps := by
    have noted : (start.after stored steps).steps = start.steps.map (· ++ steps.toArray) :=
      start.steps_noteAll steps
    rw [noted]
    simp [start]
  unfold explainIn
  simp only [accepted]
  rw [does start rfl]
  cases outcome with
  | error error => rfl
  | ok value =>
    simp only [account]
    rfl

theorem holds_of_explained {limits : Limits} {text : List Char} {whole : Explanation}
    (explained : explain limits text = .ok whole)
    {condition : Decimal → List Decimal → List Step → Prop}
    (adds : Run.Adds [] (Run.evaluate whole.expression) condition) :
    condition whole.value whole.store.toList whole.steps := by
  obtain ⟨outcome, stored, steps, came, holds⟩ :=
    explainIn_of_adds (readExpression_of_explained explained) adds
  rw [explain, came] at explained
  obtain ⟨value, rfl, same⟩ := Except.map_eq_ok_iff.mp explained
  rw [← same]
  exact holds value rfl

end ExactCalc
