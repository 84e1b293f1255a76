import ExactCalc.Proofs.Chain.Parsing
import ExactCalc.Proofs.Evaluation.Outcome

/-! The reduction of one level as a rewriting of its line of values.

The reference process replaces the leftmost product or quotient by its result until none is left,
then the leftmost sum or difference, and it looks for each of them from the start of the line. The
evaluation sweeps over the line once for each of the two kinds. Both make the same reductions in
the same order and stop at the same one.
-/

set_option autoImplicit false

namespace ExactCalc

/-! ## Reductions on record -/

/-- The steps that a process takes, and what it comes to. -/
structure Recorded (α : Type) where
  steps : List Step
  outcome : Outcome α

namespace Recorded

variable {α β : Type}

instance : Monad Recorded where
  pure a := ⟨[], .ok a⟩
  bind recorded next :=
    match recorded.outcome with
    | .error error => ⟨recorded.steps, .error error⟩
    | .ok a => ⟨recorded.steps ++ (next a).steps, (next a).outcome⟩

theorem bind_ok (steps : List Step) (a : α) (next : α → Recorded β) :
    ⟨steps, .ok a⟩ >>= next = ⟨steps ++ (next a).steps, (next a).outcome⟩ := rfl

theorem bind_eq_ok_iff {recorded : Recorded α} {next : α → Recorded β} {b : β} :
    (recorded >>= next).outcome = .ok b ↔
      ∃ a, recorded.outcome = .ok a ∧ (next a).outcome = .ok b := by
  obtain ⟨steps, outcome⟩ := recorded
  cases outcome with
  | error error => exact ⟨nofun, nofun⟩
  | ok a => exact ⟨fun came => ⟨a, rfl, came⟩, fun ⟨_, same, came⟩ => Except.ok.inj same ▸ came⟩

theorem steps_bind {recorded : Recorded α} {a : α} (came : recorded.outcome = .ok a)
    (next : α → Recorded β) :
    (recorded >>= next).steps = recorded.steps ++ (next a).steps := by
  obtain ⟨steps, outcome⟩ := recorded
  obtain rfl : outcome = .ok a := came
  rfl

theorem id_map (recorded : Recorded α) : id <$> recorded = recorded := by
  obtain ⟨steps, outcome⟩ := recorded
  cases outcome with
  | error error => rfl
  | ok a => exact congrArg (Recorded.mk · (.ok a)) (List.append_nil steps)

theorem bind_assoc {γ : Type} (recorded : Recorded α) (first : α → Recorded β)
    (second : β → Recorded γ) :
    recorded >>= first >>= second = recorded >>= fun a => first a >>= second := by
  obtain ⟨steps, outcome⟩ := recorded
  cases outcome with
  | error error => rfl
  | ok a =>
    rw [bind_ok, bind_ok]
    obtain ⟨more, came⟩ := first a
    cases came with
    | error error => rfl
    | ok b => exact congrArg (Recorded.mk · _) (List.append_assoc steps more _)

instance : LawfulMonad Recorded :=
  LawfulMonad.mk' Recorded id_map (fun _ _ => rfl) bind_assoc

def reduce (op : Operator) (a b : Decimal) : Recorded Decimal :=
  match op.apply a b with
  | .error cause => ⟨[], .error (.fault cause)⟩
  | .ok result => ⟨[.reduction a op b result], .ok result⟩

end Recorded

namespace Run

/-! ## The reference process -/

namespace Series

def values (line : Series) : List Decimal := line.first :: line.rest.map Prod.snd

def operators (line : Series) : List Operator := line.rest.map Prod.fst

def behind (value : Decimal) (op : Operator) (line : Series) : Series :=
  ⟨value, (op, line.first) :: line.rest⟩

/-- A triple `a op b` in a line, with what stands before it and after it. -/
structure Redex where
  before : List (Decimal × Operator)
  a : Decimal
  op : Operator
  b : Decimal
  after : List (Operator × Decimal)

def Redex.replaced (redex : Redex) (result : Decimal) : Series :=
  redex.before.foldr (fun (value, op) line => line.behind value op) ⟨result, redex.after⟩

/-- The leftmost triple whose operator is of the kind, in the line that begins with `first`. -/
def leftmost? (kind : Operator → Bool) (first : Decimal) :
    List (Operator × Decimal) → Option Redex
  | [] => none
  | (op, next) :: rest =>
    if kind op then some ⟨[], first, op, next, rest⟩
    else (leftmost? kind next rest).map fun redex =>
      { redex with before := (first, op) :: redex.before }

theorem operators_replaced (redex : Redex) (result : Decimal) :
    (redex.replaced result).operators =
      redex.before.map Prod.snd ++ redex.after.map Prod.fst := by
  obtain ⟨before, a, op, b, after⟩ := redex
  induction before with
  | nil => rfl
  | cons pair before ih => exact congrArg (pair.2 :: ·) ih

theorem operators_of_leftmost {kind : Operator → Bool} {first : Decimal}
    {rest : List (Operator × Decimal)} {redex : Redex}
    (found : leftmost? kind first rest = some redex) :
    rest.map Prod.fst = redex.before.map Prod.snd ++ redex.op :: redex.after.map Prod.fst := by
  induction rest generalizing first redex with
  | nil => cases found
  | cons pair rest ih =>
    obtain ⟨op, next⟩ := pair
    unfold leftmost? at found
    split at found
    · cases found
      rfl
    · obtain ⟨inner, later, rfl⟩ := Option.map_eq_some_iff.mp found
      exact congrArg (op :: ·) (ih later)

theorem length_replaced {kind : Operator → Bool} {line : Series} {redex : Redex}
    (found : leftmost? kind line.first line.rest = some redex) (result : Decimal) :
    (redex.replaced result).rest.length + 1 = line.rest.length := by
  have after := congrArg List.length (operators_replaced redex result)
  have before := congrArg List.length (operators_of_leftmost found)
  simp only [operators, List.length_map, List.length_append, List.length_cons] at after before
  omega

theorem length_replaced_lt {kind : Operator → Bool} {line : Series} {redex : Redex}
    (found : leftmost? kind line.first line.rest = some redex) (result : Decimal) :
    (redex.replaced result).rest.length < line.rest.length :=
  Nat.lt_of_succ_le (Nat.le_of_eq (length_replaced found result))

theorem first_replaced {redex : Redex} {result : Decimal}
    (ended : (redex.replaced result).rest = []) : (redex.replaced result).first = result := by
  obtain ⟨before, a, op, b, after⟩ := redex
  cases before with
  | nil => rfl
  | cons pair before => cases ended

/-- Replace the leftmost triple of the kind by its result, until there is none or one that has no
result. -/
def rewrite (kind : Operator → Bool) (line : Series) : Recorded Series :=
  match _ : leftmost? kind line.first line.rest with
  | none => pure line
  | some redex => do
    let result ← Recorded.reduce redex.op redex.a redex.b
    (redex.replaced result).rewrite kind
termination_by line.rest.length
decreasing_by
  rename_i found
  exact length_replaced_lt found result

/-- Products and quotients first, then sums and differences, each time the leftmost of all. The
value is the sole one left. -/
def reduction (line : Series) : Recorded Decimal := do
  let terms ← line.rewrite Operator.isMultiplicative
  let left ← terms.rewrite (!·.isMultiplicative)
  return left.first

/-! ## What a rewriting does -/

section

variable {kind : Operator → Bool}

theorem rewrite_of_none {line : Series} (none_left : leftmost? kind line.first line.rest = none) :
    line.rewrite kind = pure line := by
  rw [rewrite]
  split
  · rfl
  · rename_i found
    rw [none_left] at found
    cases found

theorem rewrite_of_some {line : Series} {redex : Redex}
    (found : leftmost? kind line.first line.rest = some redex) :
    line.rewrite kind = Recorded.reduce redex.op redex.a redex.b >>= fun result =>
      (redex.replaced result).rewrite kind := by
  rw [rewrite]
  split
  · rename_i none_left
    rw [none_left] at found
    cases found
  · rename_i other same
    rw [found] at same
    cases same
    rfl

theorem rewrite_first {a b : Decimal} {op : Operator} {rest : List (Operator × Decimal)}
    (matching : kind op = true) :
    rewrite kind ⟨a, (op, b) :: rest⟩ =
      Recorded.reduce op a b >>= fun result => rewrite kind ⟨result, rest⟩ := by
  have found : leftmost? kind a ((op, b) :: rest) = some ⟨[], a, op, b, rest⟩ := if_pos matching
  exact @rewrite_of_some kind ⟨a, (op, b) :: rest⟩ _ found

/-- A value whose operator is of the other kind stays in front, and nothing before it changes. -/
theorem rewrite_behind (value : Decimal) {op : Operator} (other : kind op = false)
    (line : Series) :
    (line.behind value op).rewrite kind = behind value op <$> line.rewrite kind := by
  -- by the number of operators: the first reduction is the same on both sides
  induction length : line.rest.length using Nat.strongRecOn generalizing line with
  | _ length ih =>
    subst length
    have passed : leftmost? kind value ((op, line.first) :: line.rest) =
        (leftmost? kind line.first line.rest).map fun redex =>
          { redex with before := (value, op) :: redex.before } := if_neg (by simp [other])
    cases found : leftmost? kind line.first line.rest with
    | none =>
      rw [found] at passed
      rw [rewrite_of_none found, rewrite_of_none passed]
      rfl
    | some redex =>
      rw [found] at passed
      rw [rewrite_of_some found, rewrite_of_some passed, map_bind]
      congr 1
      funext result
      exact ih _ (length_replaced_lt found result) (redex.replaced result) rfl

theorem forall_operators_of_leftmost {first : Decimal} {rest : List (Operator × Decimal)}
    (none_left : leftmost? kind first rest = none) : ∀ pair ∈ rest, kind pair.1 = false := by
  induction rest generalizing first with
  | nil => exact fun _ member => nomatch member
  | cons pair rest ih =>
    obtain ⟨op, next⟩ := pair
    unfold leftmost? at none_left
    split at none_left
    · cases none_left
    · rename_i other
      exact List.forall_mem_cons.mpr
        ⟨Bool.not_eq_true _ ▸ other, ih (Option.map_eq_none_iff.mp none_left)⟩

theorem forall_operators_of_rewrite {line left : Series}
    (came : (line.rewrite kind).outcome = .ok left) : ∀ pair ∈ left.rest, kind pair.1 = false := by
  fun_induction rewrite kind line with
  | case1 line none_left =>
    cases came
    exact forall_operators_of_leftmost none_left
  | case2 line redex found ih =>
    obtain ⟨result, _, rewritten⟩ := Recorded.bind_eq_ok_iff.mp came
    exact ih result rewritten

theorem operators_subset_of_rewrite {line left : Series}
    (came : (line.rewrite kind).outcome = .ok left) : left.operators ⊆ line.operators := by
  fun_induction rewrite kind line with
  | case1 line none_left =>
    cases came
    exact List.Subset.refl _
  | case2 line redex found ih =>
    obtain ⟨result, _, rewritten⟩ := Recorded.bind_eq_ok_iff.mp came
    intro op member
    have kept := ih result rewritten member
    rw [operators_replaced] at kept
    rw [operators, operators_of_leftmost found]
    simp only [List.mem_append, List.mem_cons] at kept ⊢
    exact kept.imp_right Or.inr

end

theorem rest_of_rewrites {line terms left : Series}
    (came : (line.rewrite Operator.isMultiplicative).outcome = .ok terms)
    (ended : (terms.rewrite (!·.isMultiplicative)).outcome = .ok left) : left.rest = [] := by
  apply List.eq_nil_iff_forall_not_mem.mpr
  intro pair member
  have multiplicative := forall_operators_of_rewrite ended pair member
  have kept := operators_subset_of_rewrite ended (List.mem_map_of_mem member)
  obtain ⟨term, inside, same⟩ := List.mem_map.mp kept
  have additive := forall_operators_of_rewrite came term inside
  rw [same] at additive
  simp [additive] at multiplicative

/-! ## The steps of a rewriting -/

section

variable {kind : Operator → Bool}

theorem reduce_ok_iff {op : Operator} {a b result : Decimal} :
    (Recorded.reduce op a b).outcome = .ok result ↔
      Recorded.reduce op a b = ⟨[.reduction a op b result], .ok result⟩ := by
  unfold Recorded.reduce
  split
  · simp
  · constructor
    · rintro ⟨⟩
      rfl
    · exact congrArg Recorded.outcome

theorem length_steps_of_rewrite {line left : Series}
    (came : (line.rewrite kind).outcome = .ok left) :
    (line.rewrite kind).steps.length + left.rest.length = line.rest.length := by
  fun_induction rewrite kind line with
  | case1 line none_left =>
    cases came
    exact Nat.zero_add _
  | case2 line redex found ih =>
    obtain ⟨result, reduced, rewritten⟩ := Recorded.bind_eq_ok_iff.mp came
    have rest := ih result rewritten
    have fewer := length_replaced found result
    rw [reduce_ok_iff.mp reduced, Recorded.bind_ok, List.length_append, List.length_singleton]
    omega

theorem last_step_of_rewrite {line left : Series}
    (came : (line.rewrite kind).outcome = .ok left) (ended : left.rest = [])
    (several : line.rest ≠ []) :
    ∃ a op b, (line.rewrite kind).steps.getLast? = some (.reduction a op b left.first) := by
  fun_induction rewrite kind line with
  | case1 line none_left =>
    cases came
    exact absurd ended several
  | case2 line redex found ih =>
    obtain ⟨result, reduced, rewritten⟩ := Recorded.bind_eq_ok_iff.mp came
    rw [reduce_ok_iff.mp reduced, Recorded.bind_ok]
    by_cases done : (redex.replaced result).rest = []
    · -- nothing is left to rewrite
      have stopped : (redex.replaced result).rewrite kind = pure (redex.replaced result) :=
        rewrite_of_none (by rw [done]; rfl)
      rw [stopped] at rewritten ⊢
      cases rewritten
      rw [first_replaced done]
      exact ⟨redex.a, redex.op, redex.b, rfl⟩
    · obtain ⟨a, op, b, last⟩ := ih result rewritten done
      exact ⟨a, op, b, by rw [List.getLast?_append, last, Option.some_or]⟩

end

/-- A reduction takes as many steps as the line has operators, and the last one gives the value. -/
theorem steps_of_reduction {line : Series} {value : Decimal}
    (came : line.reduction.outcome = .ok value) :
    line.reduction.steps.length = line.rest.length ∧
      (line.rest ≠ [] → ∃ a op b, line.reduction.steps.getLast? =
        some (.reduction a op b value)) := by
  obtain ⟨terms, multiplied, later⟩ := Recorded.bind_eq_ok_iff.mp came
  obtain ⟨left, added, same⟩ := Recorded.bind_eq_ok_iff.mp later
  obtain rfl : left.first = value := Except.ok.inj same
  have ended := rest_of_rewrites multiplied added
  have products := length_steps_of_rewrite multiplied
  have sums := length_steps_of_rewrite added
  have steps : line.reduction.steps = (line.rewrite Operator.isMultiplicative).steps ++
      (terms.rewrite (!·.isMultiplicative)).steps := by
    rw [reduction, Recorded.steps_bind multiplied, Recorded.steps_bind added]
    exact congrArg _ (List.append_nil _)
  rw [steps]
  constructor
  · rw [ended, List.length_nil] at sums
    rw [List.length_append]
    omega
  · intro several
    by_cases single : terms.rest = []
    · -- there is no sum, and the last product gives the value
      have stopped : terms.rewrite (!·.isMultiplicative) = pure terms :=
        rewrite_of_none (by rw [single]; rfl)
      rw [stopped] at added ⊢
      cases added
      rw [show (pure terms : Recorded Series).steps = [] from rfl, List.append_nil]
      exact last_step_of_rewrite multiplied ended several
    · obtain ⟨a, op, b, last⟩ := last_step_of_rewrite added ended single
      exact ⟨a, op, b, by rw [List.getLast?_append, last, Option.some_or]⟩

end Series

/-! ## The sweeps -/

end Run

def Progress.noteAll (progress : Progress) (steps : List Step) : Progress :=
  steps.foldl (fun progress step => ((Run.note step).run.run progress).2) progress

theorem Progress.noteAll_append (progress : Progress) (first rest : List Step) :
    progress.noteAll (first ++ rest) = (progress.noteAll first).noteAll rest :=
  List.foldl_append

namespace Run

/-- From whatever progress, the run notes the steps of the record and comes to its outcome. -/
def Performs {α : Type} (run : Run α) (recorded : Recorded α) : Prop :=
  ∀ progress, run.run.run progress = (recorded.outcome, progress.noteAll recorded.steps)

variable {α β : Type}

theorem Performs.pure (a : α) : Performs (Pure.pure a) (Pure.pure a) := fun _ => rfl

theorem Performs.bind {run : Run α} {recorded : Recorded α} {next : α → Run β}
    {after : α → Recorded β} (performs : run.Performs recorded)
    (each : ∀ a, recorded.outcome = .ok a → (next a).Performs (after a)) :
    (run >>= next).Performs (recorded >>= after) := by
  intro progress
  obtain ⟨steps, outcome⟩ := recorded
  rw [bind_run (performs progress)]
  cases outcome with
  | error error => rfl
  | ok a =>
    rw [Recorded.bind_ok, Progress.noteAll_append]
    exact each a rfl _

theorem reduce_performs (op : Operator) (a b : Decimal) :
    (reduce op a b).Performs (Recorded.reduce op a b) := by
  unfold reduce Recorded.reduce
  cases op.apply a b with
  | error cause => exact fun _ => rfl
  | ok result => exact fun _ => rfl

def placeBehind (closed : List (Decimal × Operator)) (line : Series) : Series :=
  closed.foldl (fun line (term, op) => line.behind term op) line

theorem products_performs (closed : List (Decimal × Operator)) (current : Decimal)
    (rest : List (Operator × Decimal)) :
    (products closed current rest).Performs
      (placeBehind closed <$> Series.rewrite Operator.isMultiplicative ⟨current, rest⟩) := by
  induction rest generalizing closed current with
  | nil =>
    rw [Series.rewrite_of_none rfl]
    exact .pure _
  | cons pair rest ih =>
    obtain ⟨op, next⟩ := pair
    unfold products
    split
    next tight =>
      rw [Series.rewrite_first tight, map_bind]
      exact (reduce_performs op current next).bind fun result _ => ih closed result
    next loose =>
      have passed := Series.rewrite_behind current (Bool.not_eq_true _ ▸ loose) ⟨next, rest⟩
      change (products ((current, op) :: closed) next rest).Performs
        (placeBehind closed <$> Series.rewrite _ (Series.behind current op ⟨next, rest⟩))
      rw [passed, ← comp_map]
      exact ih ((current, op) :: closed) next

theorem sums_performs (current : Decimal) (rest : List (Operator × Decimal))
    (additive : ∀ pair ∈ rest, pair.1.isMultiplicative = false) :
    (sums current rest).Performs
      (Series.first <$> Series.rewrite (!·.isMultiplicative) ⟨current, rest⟩) := by
  induction rest generalizing current with
  | nil =>
    rw [Series.rewrite_of_none rfl]
    exact .pure _
  | cons pair rest ih =>
    obtain ⟨op, next⟩ := pair
    obtain ⟨first, later⟩ := List.forall_mem_cons.mp additive
    rw [Series.rewrite_first (by simpa using first), map_bind]
    exact (reduce_performs op current next).bind fun result _ => ih result later

theorem collapse_performs (first : Decimal) (rest : List Decimal) (operators : List Operator) :
    (collapse (first :: rest) operators).Performs
      (Series.reduction ⟨first, operators.zip rest⟩) := by
  have swept := products_performs [] first (operators.zip rest)
  rw [show placeBehind [] = id from rfl, id_map] at swept
  exact swept.bind fun terms came =>
    sums_performs terms.first terms.rest (Series.forall_operators_of_rewrite came)

/-! ## Levels -/

def operandValues (chain : Expression) : Run (List Decimal) := do
  let forms ← operandsFrom [] chain.operands
  levelValues chain.negated chain.isLoneLiteral forms chain.operators

theorem evaluate_eq_collapse (chain : Expression) :
    evaluate chain = operandValues chain >>= fun values => collapse values chain.operators := by
  obtain ⟨negated, operands, operators⟩ := chain
  rw [evaluate, operandValues, bind_assoc]
  exact bind_congr fun forms => level_eq_collapse negated _ forms operators

theorem operandValues_yields (chain : Expression) :
    (operandValues chain).Yields (do
      let readings ← (chain.operands.map Operand.outcome).mapM id
      let values ← readings.mapM id
      return Outcome.negateHead chain.negated values) := by
  intro progress
  have whole : YieldsFrom progress (operandValues chain) (fun _ => Eq)
      (([] ++ ·) <$> (chain.operands.map Operand.outcome).mapM id >>= fun readings =>
        Outcome.negateHead chain.negated <$> readings.mapM id) :=
    (operandsFrom_yields chain.operands (fun operand _ => operand_yields operand) .nil).bind
      fun forms readings later _ shows =>
        levelValues_yields chain.negated _ chain.operators shows
  have outcome : (do
      let readings ← (chain.operands.map Operand.outcome).mapM id
      let values ← readings.mapM id
      return Outcome.negateHead chain.negated values : Outcome (List Decimal)) =
      (([] ++ ·) <$> (chain.operands.map Operand.outcome).mapM id >>= fun readings =>
        Outcome.negateHead chain.negated <$> readings.mapM id) := by
    cases (chain.operands.map Operand.outcome).mapM id <;> rfl
  rw [outcome]
  exact whole

theorem length_negateHead (negated : Bool) (values : List Decimal) :
    (Outcome.negateHead negated values).length = values.length := by
  cases values <;> rfl

theorem length_operandValues {chain : Expression} {values : List Decimal}
    {progress later : Progress}
    (came : (operandValues chain).run.run progress = (.ok values, later)) :
    values.length = chain.operands.length := by
  have yields := (operandValues_yields chain).answer_eq progress
  rw [came] at yields
  obtain ⟨readings, settled, rest⟩ := Except.bind_eq_ok_iff.mp yields.symm
  obtain ⟨numbers, read, headed⟩ := Except.bind_eq_ok_iff.mp rest
  have same : Outcome.negateHead chain.negated numbers = values := Except.ok.inj headed
  rw [← same, length_negateHead, Except.length_of_mapM_id read, Except.length_of_mapM_id settled,
    List.length_map]

/-! ## Levels inside a chain -/

end Run

theorem Operand.levelsAll_eq (level : Nat) (operands : List Operand) :
    levelsAll level operands = operands.flatMap (levels level) := by
  induction operands with
  | nil => rfl
  | cons operand rest ih => rw [levelsAll, ih, List.flatMap_cons]

theorem Operand.levels_group (level : Nat) (chain : Expression) :
    levels level (.group chain) = (level, chain) :: levelsAll (level + 1) chain.operands := rfl

theorem Operand.wellFormed_of_levels (operand : Operand) (wellFormed : operand.WellFormed)
    (level : Nat) : ∀ inner ∈ operand.levels level, inner.2.WellFormed := by
  induction operand, wellFormed using Operand.WellFormed.induct generalizing level with
  | literal lexeme position => exact fun _ member => nomatch member
  | group chain wellFormed ih =>
    rw [levels_group, levelsAll_eq]
    refine List.forall_mem_cons.mpr ⟨wellFormed, fun inner member => ?_⟩
    obtain ⟨operand, inside, found⟩ := List.mem_flatMap.mp member
    exact ih operand inside (level + 1) inner found

theorem Chain.wellFormed_of_levels (chain : Expression) (wellFormed : chain.WellFormed) :
    ∀ inner ∈ chain.levels, inner.2.WellFormed := by
  have whole := Operand.wellFormed_of_levels (.group chain)
    ((Operand.wellFormed_group chain).mpr wellFormed) 0
  exact whole

/-- At each level of a chain from the parser, whatever was done before: if its operands come to
values, then these and the operators of the level make a line, and from there on the evaluation does
what the rewriting of this line does. Otherwise it ends as its operands do. A fault names its
triple, so that the two also stop at the same one. -/
theorem evaluate_rewrites {maxDepth endPosition : Nat} {tokens : List Token}
    {chain level : Expression} {depth : Nat}
    (parsed : Chain.parse maxDepth endPosition tokens = .ok chain)
    (inside : (depth, level) ∈ chain.levels) (progress : Progress) :
    (∃ error later, (Run.operandValues level).run.run progress = (.error error, later) ∧
      (Run.evaluate level).run.run progress = (.error error, later)) ∨
    ∃ (line : Run.Series) (later : Progress),
      (Run.operandValues level).run.run progress = (.ok line.values, later) ∧
      line.operators = level.operators ∧
      (Run.evaluate level).run.run progress =
        (line.reduction.outcome, later.noteAll line.reduction.steps) := by
  have wellFormed := chain.wellFormed_of_levels ((Chain.parse_ok_iff _ _ _ _).mp parsed).1 _ inside
  have length := ((Chain.wellFormed_iff level).mp wellFormed).1
  rw [Run.evaluate_eq_collapse]
  cases came : (Run.operandValues level).run.run progress with
  | mk answer later =>
    cases answer with
    | error error => exact Or.inl ⟨error, later, rfl, Run.bind_run came⟩
    | ok values =>
      have many := Run.length_operandValues came
      cases values with
      | nil => simp [length] at many
      | cons first rest =>
        have same : level.operators.length = rest.length := by
          simpa [length] using many.symm
        refine Or.inr ⟨⟨first, level.operators.zip rest⟩, later, ?_, ?_, ?_⟩
        · rw [Run.Series.values, List.map_snd_zip (Nat.le_of_eq same.symm)]
        · exact List.map_fst_zip (Nat.le_of_eq same)
        · rw [Run.bind_run came]
          exact Run.collapse_performs first rest level.operators later

def seriesTokens : List Token :=
  [⟨.opening, 0⟩, ⟨.number ['7'], 1⟩, ⟨.operator .sub, 2⟩, ⟨.number ['2'], 3⟩, ⟨.operator .mul, 4⟩,
    ⟨.number ['3'], 5⟩, ⟨.operator .add, 6⟩, ⟨.number ['1'], 7⟩, ⟨.closing, 8⟩]

def seriesLevel : Expression :=
  ⟨false, [.literal ['7'] 1, .literal ['2'] 3, .literal ['3'] 5, .literal ['1'] 7],
    [.sub, .mul, .add]⟩

theorem evaluate_rewrites_series :
    Chain.parse 1 9 seriesTokens = .ok ⟨false, [.group seriesLevel], []⟩ ∧
      ∃ (line : Run.Series) (later : Progress),
        line.values = [⟨false, 7, 0⟩, ⟨false, 2, 0⟩, ⟨false, 3, 0⟩, ⟨false, 1, 0⟩] ∧
        line.operators = [.sub, .mul, .add] ∧ line.reduction.outcome = .ok ⟨false, 2, 0⟩ ∧
        (later.noteAll line.reduction.steps).steps = some #[
          .reduction ⟨false, 2, 0⟩ .mul ⟨false, 3, 0⟩ ⟨false, 6, 0⟩,
          .reduction ⟨false, 7, 0⟩ .sub ⟨false, 6, 0⟩ ⟨false, 1, 0⟩,
          .reduction ⟨false, 1, 0⟩ .add ⟨false, 1, 0⟩ ⟨false, 2, 0⟩] := by
  have parsed : Chain.parse 1 9 seriesTokens = .ok ⟨false, [.group seriesLevel], []⟩ := rfl
  have inside : (1, seriesLevel) ∈ Chain.levels ⟨false, [.group seriesLevel], []⟩ :=
    List.mem_cons_of_mem _ List.mem_cons_self
  let start : Progress := { steps := some #[], journal := { filter := .off } }
  have values : (Run.operandValues seriesLevel).run.run start =
      (.ok [⟨false, 7, 0⟩, ⟨false, 2, 0⟩, ⟨false, 3, 0⟩, ⟨false, 1, 0⟩], start) := rfl
  rcases evaluate_rewrites parsed inside start with
    ⟨error, later, refused, _⟩ | ⟨line, later, came, operators, ran⟩
  · rw [values] at refused
    cases refused
  · rw [values] at came
    -- what the evaluation comes to is computed, and it is what the rewriting comes to
    have evaluated : (Run.evaluate seriesLevel).run.run start = (.ok ⟨false, 2, 0⟩, { start with
        steps := some #[
          .reduction ⟨false, 2, 0⟩ .mul ⟨false, 3, 0⟩ ⟨false, 6, 0⟩,
          .reduction ⟨false, 7, 0⟩ .sub ⟨false, 6, 0⟩ ⟨false, 1, 0⟩,
          .reduction ⟨false, 1, 0⟩ .add ⟨false, 1, 0⟩ ⟨false, 2, 0⟩] }) := rfl
    obtain ⟨outcome, progress⟩ := Prod.mk.inj (ran.symm.trans evaluated)
    refine ⟨parsed, line, later, ?_, operators, outcome, by rw [progress]⟩
    exact (Except.ok.inj (Prod.mk.inj came).1).symm

end ExactCalc
