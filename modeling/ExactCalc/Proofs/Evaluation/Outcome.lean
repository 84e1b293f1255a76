import ExactCalc.Calculator
import ExactCalc.Proofs.Chain.WellFormed
import ExactCalc.Proofs.Refusal
import Mathlib.Data.List.Forall2

/-! What an evaluation comes to, apart from what it leaves behind.

A run works on a store, an account and a journal, but its outcome depends on none of them: it is a
function of the chain. The groups of a level have to come out before any of its literals is read,
so an operand has an outcome within an outcome: the outer one is that of its groups, the inner one
that of reading it. A group is read back from the store, where its value stays whatever is stored
after it.
-/

set_option autoImplicit false

namespace ExactCalc

abbrev Outcome (α : Type) := Except EvalError α

namespace Outcome

def reduce (op : Operator) (a b : Decimal) : Outcome Decimal :=
  match op.apply a b with
  | .error cause => .error (.fault cause)
  | .ok result => .ok result

def series (closed : List (Decimal × Operator)) (current : Decimal) : Run.Series :=
  closed.foldl (fun series (term, op) => ⟨term, (op, series.first) :: series.rest⟩) ⟨current, []⟩

def products (closed : List (Decimal × Operator)) (current : Decimal) :
    List (Operator × Decimal) → Outcome Run.Series
  | [] => .ok (series closed current)
  | (op, next) :: rest =>
    if op.isMultiplicative then do
      let result ← reduce op current next
      products closed result rest
    else products ((current, op) :: closed) next rest

def sums (current : Decimal) : List (Operator × Decimal) → Outcome Decimal
  | [] => .ok current
  | (op, next) :: rest => do
    let result ← reduce op current next
    sums result rest

def collapse (values : List Decimal) (operators : List Operator) : Outcome Decimal :=
  match values with
  | [] => .error .noOperand
  | first :: rest => do
    let series ← products [] first (operators.zip rest)
    sums series.first series.rest

def negateHead (negated : Bool) : List Decimal → List Decimal
  | [] => []
  | first :: rest => (if negated then first.negate else first) :: rest

theorem negateHead_false (values : List Decimal) : negateHead false values = values := by
  cases values <;> rfl

def level (negated : Bool) (readings : List (Outcome Decimal)) (operators : List Operator) :
    Outcome Decimal := do
  let values ← readings.mapM id
  collapse (negateHead negated values) operators

end Outcome

def Chain.settle (level : Chain (Outcome (Outcome Decimal))) : Outcome Decimal := do
  let readings ← level.operands.mapM id
  Outcome.level level.negated readings level.operators

def Operand.outcome : Operand → Outcome (Outcome Decimal) :=
  fold (fun lexeme _ => .ok (Form.literalValue lexeme)) (fun level => .ok <$> level.settle)

def Chain.outcome (chain : Expression) : Outcome Decimal := (chain.map Operand.outcome).settle

@[simp] theorem Operand.outcome_literal (lexeme : List Char) (position : Nat) :
    (Operand.literal lexeme position).outcome = .ok (Form.literalValue lexeme) := rfl

@[simp] theorem Operand.outcome_group (chain : Expression) :
    (Operand.group chain).outcome = .ok <$> chain.outcome := by
  rw [Operand.outcome, Operand.fold_group]
  rfl

/-! ## Forms and their readings -/

namespace Form

/-- What the form is read as in a store: a literal as itself, a marker as the value stored under its
index. -/
inductive Shows (store : Store) : Form → Outcome Decimal → Prop where
  | literal (lexeme : List Char) : Shows store (.literal lexeme) (literalValue lexeme)
  | stored {index : Nat} {value : Decimal} :
      store.get? index = some value → Shows store (.stored index) (.ok value)

theorem Shows.value_eq {store : Store} {form : Form} {reading : Outcome Decimal}
    (shows : Shows store form reading) : form.value store = reading := by
  cases shows with
  | literal lexeme => rfl
  | stored found => simp only [Form.value, storedValue, found]

theorem Shows.mono {store later : Store} (grown : store.toList <+: later.toList) {form : Form}
    {reading : Outcome Decimal} (shows : Shows store form reading) : Shows later form reading := by
  cases shows with
  | literal lexeme => exact .literal lexeme
  | stored found =>
    obtain ⟨added, same⟩ := grown
    rw [Store.get?_eq_getElem?] at found
    refine .stored ?_
    rw [Store.get?_eq_getElem?, ← same]
    exact List.getElem?_append_left (List.getElem?_eq_some_iff.mp found).1 ▸ found

theorem values_of_shows {store : Store} {forms : List Form} {readings : List (Outcome Decimal)}
    (shows : List.Forall₂ (Shows store) forms readings) :
    values store forms = readings.mapM id := by
  induction shows with
  | nil => rfl
  | cons first _ ih =>
    rw [values] at ih
    simp only [values, List.mapM_cons, ih, first.value_eq, id_eq]

end Form

theorem Store.get?_add (store : Store) (value : Decimal) :
    (store.add value).get? store.size = some value := by
  rw [get?_eq_getElem?, toList_add, size_eq_length]
  exact List.getElem?_concat_length

theorem Store.prefix_add (store : Store) (value : Decimal) :
    store.toList <+: (store.add value).toList := by
  rw [toList_add]
  exact List.prefix_append _ _

/-! ## Runs and their outcomes -/

namespace Run

/-- From this progress on the run comes to the outcome, and what was stored stays stored. The view
compares answers in the store that the run leaves. -/
structure YieldsFrom {α β : Type} (progress : Progress) (run : Run α)
    (view : Store → α → β → Prop) (outcome : Outcome β) : Prop where
  answer : Except.Corresponds Eq (view (run.run.run progress).2.store)
    (run.run.run progress).1 outcome
  grown : progress.store.toList <+: (run.run.run progress).2.store.toList

/-- The run comes to the outcome whatever was done before it. -/
def Yields {α : Type} (run : Run α) (outcome : Outcome α) : Prop :=
  ∀ progress, YieldsFrom progress run (fun _ => Eq) outcome

variable {α β γ δ : Type} {progress : Progress}

theorem YieldsFrom.pure {view : Store → α → β → Prop} {a : α} {b : β}
    (same : view progress.store a b) : YieldsFrom progress (Pure.pure a) view (.ok b) :=
  ⟨.ok same, List.prefix_rfl⟩

theorem YieldsFrom.throw (view : Store → α → β → Prop) (error : EvalError) :
    YieldsFrom progress (MonadExcept.throw error) view (.error error) :=
  ⟨.error rfl, List.prefix_rfl⟩

theorem bind_run {first : Run α} {next : α → Run β} {progress later : Progress}
    {answer : Outcome α} (ran : first.run.run progress = (answer, later)) :
    (first >>= next).run.run progress = ExceptT.bindCont next answer later := by
  change (first.run >>= ExceptT.bindCont next).run progress = _
  rw [StateT.run_bind]
  change (ExceptT.bindCont next (first.run.run progress).1).run (first.run.run progress).2 = _
  rw [ran]
  rfl

/-- The outcome of a run depends on that of its first part as seen through its view. -/
theorem YieldsFrom.bind {first : Run α} {view : Store → α → β → Prop} {outcome : Outcome β}
    {next : α → Run γ} {viewNext : Store → γ → δ → Prop} {after : β → Outcome δ}
    (yields : YieldsFrom progress first view outcome)
    (each : ∀ a b later, progress.store.toList <+: later.store.toList → view later.store a b →
      YieldsFrom later (next a) viewNext (after b)) :
    YieldsFrom progress (first >>= next) viewNext (outcome >>= after) := by
  cases ran : first.run.run progress with
  | mk answer later =>
    obtain ⟨came, grown⟩ := yields
    rw [ran] at came grown
    -- the first part has come to an answer, from which the second goes on, or ends the run
    cases came with
    | error same =>
      subst same
      exact ⟨by rw [bind_run ran]; exact .error rfl, by rw [bind_run ran]; exact grown⟩
    | ok same =>
      have later := each _ _ later grown same
      exact ⟨by rw [bind_run ran]; exact later.answer,
        by rw [bind_run ran]; exact grown.trans later.grown⟩

theorem YieldsFrom.note {next : Unit → Run α} {view : Store → α → β → Prop} {outcome : Outcome β}
    (step : Step)
    (yields : ∀ later, later.store = progress.store → YieldsFrom later (next ()) view outcome) :
    YieldsFrom progress (Run.note step >>= next) view outcome := by
  have rest := yields ((Run.note step).run.run progress).2 rfl
  exact ⟨rest.answer, rest.grown⟩

theorem YieldsFrom.get {next : Progress → Run α} {view : Store → α → β → Prop}
    {outcome : Outcome β} (yields : YieldsFrom progress (next progress) view outcome) :
    YieldsFrom progress (MonadState.get >>= next) view outcome :=
  ⟨yields.answer, yields.grown⟩

/-- A value is stored under the next index, and nothing else is seen of it in the outcome. -/
theorem YieldsFrom.store {next : Nat → Run α} {view : Store → α → β → Prop} {outcome : Outcome β}
    (value : Decimal)
    (yields : ∀ index later, later.store = progress.store.add value →
      later.store.get? index = some value → YieldsFrom later (next index) view outcome) :
    YieldsFrom progress (Run.store value >>= next) view outcome := by
  have rest := yields progress.store.size ((Run.store value).run.run progress).2 rfl
    (progress.store.get?_add value)
  exact ⟨rest.answer, (progress.store.prefix_add value).trans rest.grown⟩

theorem reduce_yields (op : Operator) (a b : Decimal) :
    (reduce op a b).Yields (Outcome.reduce op a b) := by
  intro progress
  unfold reduce Outcome.reduce
  cases op.apply a b with
  | error cause => exact .throw _ _
  | ok result => exact .note _ fun later _ => .pure rfl

theorem products_yields (closed : List (Decimal × Operator)) (current : Decimal)
    (rest : List (Operator × Decimal)) :
    (products closed current rest).Yields (Outcome.products closed current rest) := by
  -- the two sweeps branch alike, on the kind of the next operator
  induction rest generalizing closed current with
  | nil => exact fun progress => .pure rfl
  | cons pair rest ih =>
    obtain ⟨op, next⟩ := pair
    unfold products Outcome.products
    split
    · refine fun progress => (reduce_yields op current next progress).bind ?_
      rintro result _ later _ rfl
      exact ih closed result later
    · exact ih _ next

theorem sums_yields (current : Decimal) (rest : List (Operator × Decimal)) :
    (sums current rest).Yields (Outcome.sums current rest) := by
  induction rest generalizing current with
  | nil => exact fun progress => .pure rfl
  | cons pair rest ih =>
    obtain ⟨op, next⟩ := pair
    refine fun progress => (reduce_yields op current next progress).bind ?_
    rintro result _ later _ rfl
    exact ih result later

theorem collapse_yields (values : List Decimal) (operators : List Operator) :
    (collapse values operators).Yields (Outcome.collapse values operators) := by
  cases values with
  | nil => exact fun progress => .throw _ _
  | cons first rest =>
    refine fun progress => (products_yields [] first (operators.zip rest) progress).bind ?_
    rintro series _ later _ rfl
    exact sums_yields series.first series.rest later

theorem negateFirst_yields (lone : Bool) (forms : List Form) (values : List Decimal)
    (length : forms.length = values.length) :
    YieldsFrom progress (negateFirst lone forms values) (fun _ answer negated => answer.2 = negated)
      (.ok (Outcome.negateHead true values)) := by
  cases values with
  | nil =>
    obtain rfl := List.length_eq_zero_iff.mp length
    exact .pure rfl
  | cons value values =>
    cases forms with
    | nil => cases length
    | cons form forms =>
      simp only [negateFirst]
      -- stored or not, the negated value stands first
      split
      · exact .pure rfl
      · exact .store _ fun index later _ _ => .note _ fun later _ => .pure rfl

def levelValues (negated lone : Bool) (forms : List Form) (operators : List Operator) :
    Run (List Decimal) := do
  let values ← Form.values (← get).store forms
  let (forms, values) ←
    if negated then negateFirst lone forms values else pure (forms, values)
  if !operators.isEmpty && forms.any Form.isStored then
    note (.rewriting forms operators)
  return values

theorem collapse_noted (step : Step) (noted : Prop) [Decidable noted] (values : List Decimal)
    (operators : List Operator) :
    (if noted then do note step; collapse values operators else collapse values operators) =
      (if noted then do note step; pure values else pure values) >>= fun values =>
        collapse values operators := by
  split
  · rw [bind_assoc]
    rfl
  · rfl

theorem level_eq_collapse (negated lone : Bool) (forms : List Form) (operators : List Operator) :
    level negated lone forms operators =
      levelValues negated lone forms operators >>= fun values => collapse values operators := by
  rw [level, levelValues, bind_assoc]
  refine bind_congr fun progress => ?_
  rw [bind_assoc]
  refine bind_congr fun values => ?_
  cases negated with
  | false => exact collapse_noted _ _ values operators
  | true =>
    simp only [if_true, bind_assoc]
    exact bind_congr fun pair => collapse_noted _ _ pair.2 operators

theorem noted_yields (forms : List Form) (values : List Decimal) (operators : List Operator) :
    Yields (if !operators.isEmpty && forms.any Form.isStored then
        do note (.rewriting forms operators); pure values
      else pure values) (.ok values) := by
  intro progress
  split
  · exact .note _ fun later _ => .pure rfl
  · exact .pure rfl

theorem levelValues_yields (negated lone : Bool) (operators : List Operator) {forms : List Form}
    {readings : List (Outcome Decimal)}
    (shows : List.Forall₂ (Form.Shows progress.store) forms readings) :
    YieldsFrom progress (levelValues negated lone forms operators) (fun _ => Eq)
      (Outcome.negateHead negated <$> readings.mapM id) := by
  have read := Form.values_of_shows shows
  unfold levelValues
  refine .get ?_
  rw [← read]
  cases came : Form.values progress.store forms with
  | error error => exact .throw _ error
  | ok values =>
    cases negated with
    | false =>
      change YieldsFrom progress _ _ (.ok (Outcome.negateHead false values))
      rw [Outcome.negateHead_false]
      exact noted_yields forms values operators progress
    | true =>
      have length : forms.length = values.length := by
        rw [Except.length_of_mapM_id (read.symm.trans came), shows.length_eq]
      have whole : YieldsFrom progress _ (fun _ => Eq)
          (.ok (Outcome.negateHead true values) >>= .ok) :=
        (negateFirst_yields lone forms values length).bind fun pair _ later _ same => by
          rw [← same]
          exact noted_yields pair.1 pair.2 operators later
      exact whole

theorem level_yields (negated lone : Bool) (operators : List Operator) {forms : List Form}
    {readings : List (Outcome Decimal)}
    (shows : List.Forall₂ (Form.Shows progress.store) forms readings) :
    YieldsFrom progress (level negated lone forms operators) (fun _ => Eq)
      (Outcome.level negated readings operators) := by
  have whole : YieldsFrom progress _ (fun _ => Eq) (Outcome.negateHead negated <$> readings.mapM id
      >>= fun values => Outcome.collapse values operators) :=
    (levelValues_yields negated lone operators shows).bind fun values _ later _ same => by
      rw [← same]
      exact collapse_yields values operators later
  have outcome : Outcome.level negated readings operators =
      (Outcome.negateHead negated <$> readings.mapM id >>= fun values =>
        Outcome.collapse values operators) := by
    rw [Outcome.level]
    cases readings.mapM id <;> rfl
  rw [level_eq_collapse, outcome]
  exact whole

theorem operandsFrom_yields (operands : List Operand)
    (each : ∀ member ∈ operands, ∀ progress,
      YieldsFrom progress (operand member) Form.Shows member.outcome)
    {found : List Form} {readings : List (Outcome Decimal)}
    (shows : List.Forall₂ (Form.Shows progress.store) found.reverse readings) :
    YieldsFrom progress (operandsFrom found operands)
      (fun store => List.Forall₂ (Form.Shows store))
      ((readings ++ ·) <$> (operands.map Operand.outcome).mapM id) := by
  induction operands generalizing found readings progress with
  | nil =>
    have same : ((readings ++ ·) <$> ([].map Operand.outcome).mapM id : Outcome _) =
        .ok readings := congrArg Except.ok (List.append_nil readings)
    rw [same]
    exact .pure shows
  | cons first rest ih =>
    -- what the forms found so far show outlasts the evaluation of the next operand
    have whole : YieldsFrom progress (operandsFrom found (first :: rest))
        (fun store => List.Forall₂ (Form.Shows store))
        (first.outcome >>= fun reading =>
          (readings ++ [reading] ++ ·) <$> (rest.map Operand.outcome).mapM id) := by
      rw [operandsFrom]
      refine (each first List.mem_cons_self progress).bind fun form reading later grown shown => ?_
      refine ih (fun member inside => each member (List.mem_cons_of_mem first inside)) ?_
      rw [List.reverse_cons]
      exact List.rel_append (shows.imp fun _ _ => Form.Shows.mono grown) (.cons shown .nil)
    have outcome : ((readings ++ ·) <$> ((first :: rest).map Operand.outcome).mapM id) =
        (first.outcome >>= fun reading =>
          (readings ++ [reading] ++ ·) <$> (rest.map Operand.outcome).mapM id) := by
      rw [List.map_cons, List.mapM_cons]
      cases first.outcome with
      | error error => rfl
      | ok reading =>
        cases (rest.map Operand.outcome).mapM id with
        | error error => rfl
        | ok others => simp [bind, Except.bind, Functor.map, Except.map, pure, Except.pure]
    rw [outcome]
    exact whole

theorem evaluate_yields_of_operands (chain : Expression)
    (each : ∀ member ∈ chain.operands, ∀ progress,
      YieldsFrom progress (operand member) Form.Shows member.outcome) :
    (evaluate chain).Yields chain.outcome := by
  obtain ⟨negated, operands, operators⟩ := chain
  intro progress
  rw [evaluate]
  have whole : YieldsFrom progress (operandsFrom [] operands >>= fun forms =>
        level negated (Chain.isLoneLiteral ⟨negated, operands, operators⟩) forms operators)
      (fun _ => Eq)
      (([] ++ ·) <$> (operands.map Operand.outcome).mapM id >>= fun readings =>
        Outcome.level negated readings operators) :=
    (operandsFrom_yields operands each .nil).bind fun forms readings later _ shows =>
      level_yields negated _ operators shows
  have outcome : Chain.outcome ⟨negated, operands, operators⟩ =
      (([] ++ ·) <$> (operands.map Operand.outcome).mapM id >>= fun readings =>
        Outcome.level negated readings operators) := by
    rw [Chain.outcome, Chain.settle, Chain.map]
    cases (operands.map Operand.outcome).mapM id <;> rfl
  rw [outcome]
  exact whole

theorem operand_yields (member : Operand) (progress : Progress) :
    YieldsFrom progress (operand member) Form.Shows member.outcome := by
  induction member generalizing progress with
  | literal lexeme position =>
    rw [operand]
    exact .pure (.literal lexeme)
  | group chain ih =>
    rw [operand, Operand.outcome_group, map_eq_pure_bind]
    refine (evaluate_yields_of_operands chain ih progress).bind ?_
    rintro value _ later _ rfl
    exact .store value fun index later _ found => .note _ fun last same =>
      .pure (.stored (by rw [same, found]))

theorem evaluate_yields (chain : Expression) : (evaluate chain).Yields chain.outcome :=
  evaluate_yields_of_operands chain fun member _ => operand_yields member

theorem Yields.answer_eq {run : Run α} {outcome : Outcome α} (yields : run.Yields outcome)
    (progress : Progress) : (run.run.run progress).1 = outcome :=
  Except.corresponds_eq_iff.mp (yields progress).answer

end Run

/-- The answer of an accepted text is the outcome of its chain, whatever the journal admits. -/
theorem evaluateIn_eq_outcome {limits : Limits} {text : List Char} {tokens : List Token}
    {chain : Expression} (accepted : readExpression limits text = .ok (tokens, chain))
    (journal : Journal) : (evaluateIn limits text journal).1 = chain.outcome := by
  have yields := (Run.evaluate_yields chain).answer_eq { steps := none, journal }
  unfold evaluateIn
  simp only [accepted]
  cases ran : (Run.evaluate chain).run.run { steps := none, journal } with
  | mk answer progress =>
    rw [ran] at yields
    rw [← yields]
    cases answer <;> rfl

theorem map_value_explainIn {limits : Limits} {text : List Char} {tokens : List Token}
    {chain : Expression} (accepted : readExpression limits text = .ok (tokens, chain))
    (journal : Journal) :
    Explanation.value <$> (explainIn limits text journal).1 = chain.outcome := by
  have yields := (Run.evaluate_yields chain).answer_eq { steps := some #[], journal }
  unfold explainIn
  simp only [accepted]
  cases ran : (Run.evaluate chain).run.run { steps := some #[], journal } with
  | mk answer progress =>
    rw [ran] at yields
    rw [← yields]
    cases answer <;> rfl

theorem evaluate_eq_outcome {limits : Limits} {text : List Char} {tokens : List Token}
    {chain : Expression} (accepted : readExpression limits text = .ok (tokens, chain)) :
    evaluate limits text = chain.outcome :=
  evaluateIn_eq_outcome accepted _

theorem map_value_explain {limits : Limits} {text : List Char} {tokens : List Token}
    {chain : Expression} (accepted : readExpression limits text = .ok (tokens, chain)) :
    Explanation.value <$> explain limits text = chain.outcome :=
  map_value_explainIn accepted _

end ExactCalc
