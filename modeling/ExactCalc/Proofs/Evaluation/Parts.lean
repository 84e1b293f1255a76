import ExactCalc.Proofs.Chain.Sentences
import ExactCalc.Proofs.Evaluation.Account

/-! The parts of a level and what each of them leaves.

A group leaves what it leaves alone, with its markers raised by the number of values stored before.
Then its value is stored, and the line that says so is noted. After the last group comes what the
level itself leaves.
-/

set_option autoImplicit false

namespace ExactCalc

theorem Operand.mem_text_group_iff (chain : Expression) :
    '#' ∈ (Operand.group chain).symbols.flatMap Symbol.text ↔ '#' ∈ chain.print := by
  have text : (Operand.group chain).symbols.flatMap Symbol.text =
      ['('] ++ chain.print ++ [')'] := by
    rw [symbols_group, List.flatMap_append, List.flatMap_cons]
    rfl
  rw [text]
  simp

/-- Wherever its literals stand, the chain comes to the value and leaves the stored values, and the
lines with their markers raised by the number of values stored before. -/
def Chain.Leaves (chain : Expression) (value : Decimal) (stored : List Decimal)
    (lines : List (List Char)) : Prop :=
  ∀ other : Expression, other.unplaced = chain.unplaced → ∀ progress : Progress,
    Run.Leaves progress (Run.evaluate other) value stored
      (lines.map (Store.raiseMarkers progress.store.size))

/-! ## The parts of a level -/

/-- An operand and what becomes of it alone: its value, the values stored on the way to it, and the
lines noted. -/
structure Part where
  operand : Operand
  value : Decimal
  inner : List Decimal
  lines : List (List Char)

namespace Part

def Alone (part : Part) : Prop :=
  match part.operand with
  | .literal lexeme _ => Form.literalValue lexeme = .ok part.value
  | .group chain => chain.Leaves part.value part.inner part.lines

/-- What the part adds to the store: for a group, its value comes last. -/
def stored (part : Part) : List Decimal :=
  match part.operand with
  | .literal .. => []
  | .group _ => part.inner ++ [part.value]

def form (base : Nat) (part : Part) : Form :=
  match part.operand with
  | .literal lexeme _ => .literal lexeme
  | .group _ => .stored (base + part.inner.length)

def noted (base : Nat) (part : Part) : List (List Char) :=
  match part.operand with
  | .literal .. => []
  | .group chain =>
    part.lines.map (Store.raiseMarkers base) ++
      [(Step.group (base + part.inner.length) chain part.value).print]

def placed (base : Nat) : List Part → List (Nat × Part)
  | [] => []
  | part :: rest => (base, part) :: placed (base + part.stored.length) rest

def allStored (parts : List Part) : List Decimal := parts.flatMap stored

def allForms (base : Nat) (parts : List Part) : List Form :=
  (placed base parts).map fun (before, part) => part.form before

def allNoted (base : Nat) (parts : List Part) : List (List Char) :=
  (placed base parts).flatMap fun (before, part) => part.noted before

theorem allStored_cons (part : Part) (rest : List Part) :
    allStored (part :: rest) = part.stored ++ allStored rest := rfl

theorem allForms_cons (base : Nat) (part : Part) (rest : List Part) :
    allForms base (part :: rest) =
      part.form base :: allForms (base + part.stored.length) rest := rfl

theorem allNoted_cons (base : Nat) (part : Part) (rest : List Part) :
    allNoted base (part :: rest) =
      part.noted base ++ allNoted (base + part.stored.length) rest := rfl

def level (chain : Expression) (base : Nat) (first : Part) (rest : List Part) : FlatLevel where
  negated := chain.negated
  lone := chain.isLoneLiteral
  operators := chain.operators
  index := base + (allStored (first :: rest)).length
  form := first.form base
  value := first.value
  forms := allForms (base + first.stored.length) rest
  values := rest.map value

/-! ### What a level leaves -/

theorem Alone.leaves {part : Part} (alone : part.Alone) {other : Operand}
    (same : other.unplaced = part.operand.unplaced) (progress : Progress) :
    Run.Leaves progress (Run.operand other) (part.form progress.store.size) part.stored
      (part.noted progress.store.size) := by
  obtain ⟨operand, value, inner, lines⟩ := part
  cases operand with
  | literal lexeme position =>
    obtain ⟨place, rfl⟩ := Operand.eq_literal_of_unplaced same
    rw [Run.operand]
    exact .pure _
  | group chain =>
    rw [Operand.unplaced_group] at same
    obtain ⟨otherChain, rfl, unplaced⟩ := Operand.eq_group_of_unplaced same
    rw [Run.operand]
    refine (alone otherChain unplaced progress).bind fun between stored => ?_
    have index : progress.store.size + inner.length = between.store.size := by
      rw [between.store.size_eq_length, stored, List.length_append]
      rfl
    have line : (Step.group between.store.size otherChain value).print =
        (Step.group between.store.size chain value).print := by
      rw [Step.print, Step.print, Chain.print_eq_of_unplaced unplaced]
    have kept : Run.Leaves between _ _ _ _ :=
      .of_does (Run.storeGroup_does otherChain value)
    rw [← Store.size_eq_length, List.map_singleton, line, ← index] at kept
    exact kept

theorem operandsFrom_leaves {parts : List Part} (alone : ∀ part ∈ parts, part.Alone)
    {others : List Operand}
    (same : others.map Operand.unplaced = parts.map fun part => part.operand.unplaced)
    (found : List Form) (progress : Progress) :
    Run.Leaves progress (Run.operandsFrom found others)
      (found.reverse ++ allForms progress.store.size parts) (allStored parts)
      (allNoted progress.store.size parts) := by
  induction parts generalizing others found progress with
  | nil =>
    obtain rfl := List.map_eq_nil_iff.mp same
    rw [Run.operandsFrom, show allForms progress.store.size [] = [] from rfl, List.append_nil]
    exact .pure _
  | cons part parts ih =>
    obtain ⟨other, others, rfl, first, rest⟩ := List.map_eq_cons_iff.mp same
    obtain ⟨firstAlone, restAlone⟩ := List.forall_mem_cons.mp alone
    rw [Run.operandsFrom]
    refine (firstAlone.leaves first progress).bind fun between stored => ?_
    have size : between.store.size = progress.store.size + part.stored.length := by
      rw [between.store.size_eq_length, stored, List.length_append]
      rfl
    have leaves := ih restAlone rest (part.form progress.store.size :: found) between
    rw [size, List.reverse_cons, List.append_assoc] at leaves
    exact leaves

theorem values_allForms {parts : List Part} (alone : ∀ part ∈ parts, part.Alone)
    {store : Store} (before : List Decimal) (holds : store.toList = before ++ allStored parts) :
    Form.values store (allForms before.length parts) = .ok (parts.map value) := by
  induction parts generalizing before with
  | nil => rfl
  | cons part parts ih =>
    obtain ⟨firstAlone, restAlone⟩ := List.forall_mem_cons.mp alone
    have split : store.toList = before ++ part.stored ++ allStored parts := by
      rw [holds, allStored_cons, List.append_assoc]
    have rest := ih restAlone (before ++ part.stored) split
    have first : (part.form before.length).value store = .ok part.value := by
      obtain ⟨operand, value, inner, lines⟩ := part
      cases operand with
      | literal lexeme position => exact firstAlone
      | group chain =>
        -- the value stands right behind what was stored on the way to it
        have found : store.get? (before.length + inner.length) = some value := by
          rw [Store.get?_eq_getElem?, split]
          simp [stored]
        simp only [form, Form.value, Form.storedValue, found]
    rw [List.length_append, Form.values] at rest
    rw [allForms_cons, Form.values, List.mapM_cons, first, List.map_cons]
    exact congrArg (fun tail => tail >>= fun values => Except.ok (part.value :: values)) rest

theorem Alone.outcome {part : Part} (alone : part.Alone) :
    part.operand.outcome = .ok (.ok part.value) := by
  obtain ⟨operand, value, inner, lines⟩ := part
  cases operand with
  | literal lexeme position => exact congrArg Except.ok alone
  | group chain =>
    let progress : Progress := { steps := none, journal := { filter := .off } }
    have answered := (alone chain rfl progress).answered
    rw [(Run.evaluate_yields chain).answer_eq progress] at answered
    rw [Operand.outcome_group, answered]
    rfl

theorem outcome_reduction {chain : Expression} {first : Part} {rest : List Part}
    (operands : (first :: rest).map operand = chain.operands)
    (alone : ∀ part ∈ first :: rest, part.Alone) (base : Nat) :
    (level chain base first rest).reduction.outcome = chain.outcome := by
  have outcomes : chain.operands.map Operand.outcome =
      (((first :: rest).map value).map Except.ok).map Except.ok := by
    rw [← operands, List.map_map, List.map_map, List.map_map]
    exact List.map_congr_left fun part member => (alone part member).outcome
  have collapsed : chain.outcome = Outcome.collapse
      (Outcome.negateHead chain.negated ((first :: rest).map value)) chain.operators := by
    rw [Chain.outcome, Chain.settle, Chain.map, outcomes, Except.mapM_id_map_ok]
    change Outcome.level _ (((first :: rest).map value).map Except.ok) _ = _
    rw [Outcome.level, Except.mapM_id_map_ok]
    rfl
  -- the run that reduces the line comes to both
  let progress : Progress := { steps := none, journal := { filter := .off } }
  let head := (level chain base first rest).first
  have performs := Run.collapse_performs head (rest.map value) chain.operators progress
  have yields := (Run.collapse_yields (head :: rest.map value) chain.operators).answer_eq progress
  rw [performs] at yields
  rw [collapsed]
  exact yields

/-- What the parts of a chain leave, one after the other, and then its own level. -/
theorem evaluate_leaves {chain : Expression} {first : Part} {rest : List Part}
    (operands : (first :: rest).map operand = chain.operands)
    (alone : ∀ part ∈ first :: rest, part.Alone) {result : Decimal}
    (came : chain.outcome = .ok result) {other : Expression}
    (same : other.unplaced = chain.unplaced) (progress : Progress) :
    Run.Leaves progress (Run.evaluate other) result
      (allStored (first :: rest) ++ (level chain progress.store.size first rest).stored)
      (allNoted progress.store.size (first :: rest) ++
        (level chain progress.store.size first rest).steps.map Step.print) := by
  have negated := congrArg Chain.negated same
  have operators := congrArg Chain.operators same
  change other.negated = chain.negated at negated
  change other.operators = chain.operators at operators
  have lone : other.isLoneLiteral = chain.isLoneLiteral := by
    rw [← other.isLoneLiteral_unplaced, same, chain.isLoneLiteral_unplaced]
  have unplaced := congrArg Chain.operands same
  change other.operands.map Operand.unplaced = chain.operands.map Operand.unplaced at unplaced
  rw [← operands, List.map_map] at unplaced
  let flat := level chain progress.store.size first rest
  have reduced : flat.reduction.outcome = .ok result := by
    rw [outcome_reduction operands alone, came]
  have values : Run.Leaves progress (Run.operandValues other) (flat.first :: flat.values)
      (allStored (first :: rest) ++ flat.stored)
      (allNoted progress.store.size (first :: rest) ++
        (flat.negationSteps ++ flat.rewritingSteps).map Step.print) := by
    rw [Run.operandValues, negated, operators, lone]
    refine (operandsFrom_leaves alone unplaced [] progress).bind fun between stored => ?_
    have index : flat.index = between.store.size := by
      rw [between.store.size_eq_length, stored, List.length_append]
      rfl
    exact .of_does (flat.levelValues_does index
      (values_allForms alone progress.store.toList stored))
  have collapses : ∀ between : Progress, Run.Leaves between
      (Run.collapse (flat.first :: flat.values) chain.operators) result []
      (flat.reduction.steps.map Step.print) := fun between =>
    .of_performs (Run.collapse_performs flat.first flat.values chain.operators) reduced
  have whole : Run.Leaves progress (Run.operandValues other >>= fun values =>
      Run.collapse values chain.operators) result _ _ :=
    values.bind fun between _ => collapses between
  rw [List.append_nil, List.append_assoc, ← List.map_append] at whole
  rw [Run.evaluate_eq_collapse, operators]
  exact whole

/-! ### Parts with more values stored before -/

def Plain (part : Part) : Prop := '#' ∉ part.operand.symbols.flatMap Symbol.text

theorem Plain.form {part : Part} (plain : part.Plain) (base : Nat) : (part.form base).Plain := by
  obtain ⟨operand, value, inner, lines⟩ := part
  cases operand with
  | literal lexeme position =>
    rintro _ ⟨⟩
    simpa [Plain, Symbol.text] using plain
  | group chain => rintro _ ⟨⟩

theorem form_raised (part : Part) (offset base : Nat) :
    (part.form base).raised offset = part.form (offset + base) := by
  obtain ⟨operand, value, inner, lines⟩ := part
  cases operand with
  | literal lexeme position => rfl
  | group chain => exact congrArg Form.stored (Nat.add_assoc _ _ _).symm

theorem Plain.noted_raised {part : Part} (plain : part.Plain) (offset base : Nat) :
    (part.noted base).map (Store.raiseMarkers offset) = part.noted (offset + base) := by
  obtain ⟨operand, value, inner, lines⟩ := part
  cases operand with
  | literal lexeme position => rfl
  | group chain =>
    have shown := mt (Operand.mem_text_group_iff chain).mpr plain
    have line := @Step.raiseMarkers_print (.group (base + inner.length) chain value) shown offset
    have earlier : (lines.map (Store.raiseMarkers base)).map (Store.raiseMarkers offset) =
        lines.map (Store.raiseMarkers (offset + base)) := by
      rw [List.map_map]
      exact List.map_congr_left fun text _ => Store.raiseMarkers_raiseMarkers base offset text
    simp only [noted, List.map_append, List.map_cons, List.map_nil, earlier, line, Step.raised,
      Nat.add_assoc]

theorem allForms_raised (parts : List Part) (offset base : Nat) :
    (allForms base parts).map (Form.raised offset) = allForms (offset + base) parts := by
  induction parts generalizing base with
  | nil => rfl
  | cons part parts ih =>
    rw [allForms_cons, List.map_cons, form_raised, ih, allForms_cons, Nat.add_assoc]

theorem allNoted_raised {parts : List Part} (plain : ∀ part ∈ parts, part.Plain)
    (offset base : Nat) :
    (allNoted base parts).map (Store.raiseMarkers offset) = allNoted (offset + base) parts := by
  induction parts generalizing base with
  | nil => rfl
  | cons part parts ih =>
    obtain ⟨first, rest⟩ := List.forall_mem_cons.mp plain
    rw [allNoted_cons, List.map_append, first.noted_raised, ih rest, allNoted_cons,
      Nat.add_assoc]

theorem level_raised (chain : Expression) (first : Part) (rest : List Part)
    (offset base : Nat) :
    (level chain base first rest).raised offset = level chain (offset + base) first rest := by
  simp only [FlatLevel.raised, level, form_raised, allForms_raised, Nat.add_assoc]

theorem plain_allForms {parts : List Part} (plain : ∀ part ∈ parts, part.Plain) (base : Nat) :
    ∀ form ∈ allForms base parts, form.Plain := by
  induction parts generalizing base with
  | nil => exact nofun
  | cons part parts ih =>
    obtain ⟨first, rest⟩ := List.forall_mem_cons.mp plain
    exact List.forall_mem_cons.mpr ⟨first.form base, ih rest _⟩

/-- The lines of a chain depend on the number of values stored before in their markers only. -/
theorem lines_raised {first : Part} {rest : List Part}
    (plain : ∀ part ∈ first :: rest, part.Plain) (chain : Expression) (offset : Nat) :
    (allNoted 0 (first :: rest) ++ (level chain 0 first rest).steps.map Step.print).map
        (Store.raiseMarkers offset) =
      allNoted offset (first :: rest) ++ (level chain offset first rest).steps.map Step.print := by
  obtain ⟨head, tail⟩ := List.forall_mem_cons.mp plain
  have levelPlain : (level chain 0 first rest).Plain :=
    ⟨head.form 0, plain_allForms tail _⟩
  rw [List.map_append, allNoted_raised plain, levelPlain.lines_raised, level_raised, Nat.add_zero]

end Part

/-! ## Every chain with a value has parts -/

theorem exists_map_eq {α β : Type} {f : β → α} {holds : β → Prop} {items : List α}
    (each : ∀ item ∈ items, ∃ b, f b = item ∧ holds b) :
    ∃ others : List β, others.map f = items ∧ ∀ b ∈ others, holds b := by
  induction items with
  | nil => exact ⟨[], rfl, nofun⟩
  | cons item items ih =>
    obtain ⟨first, rest⟩ := List.forall_mem_cons.mp each
    obtain ⟨b, rfl, held⟩ := first
    obtain ⟨others, rfl, all⟩ := ih rest
    exact ⟨b :: others, rfl, List.forall_mem_cons.mpr ⟨held, all⟩⟩

namespace Chain

theorem outcome_of_mem {chain : Expression} {result : Decimal}
    (came : chain.outcome = .ok result) {operand : Operand} (inside : operand ∈ chain.operands) :
    ∃ value, operand.outcome = .ok (.ok value) := by
  obtain ⟨readings, settled, later⟩ := Except.bind_eq_ok_iff.mp came
  obtain ⟨values, read, _⟩ := Except.bind_eq_ok_iff.mp later
  have member : operand.outcome ∈ chain.operands.map Operand.outcome :=
    List.mem_map_of_mem inside
  change (chain.operands.map Operand.outcome).mapM id = _ at settled
  rw [Except.mapM_id_eq_ok settled, Except.mapM_id_eq_ok read, List.map_map] at member
  obtain ⟨value, _, same⟩ := List.mem_map.mp member
  exact ⟨value, same.symm⟩

theorem mem_print_of_inside {chain : Expression} {symbols : List Symbol}
    (inside : symbols <:+: chain.symbols) {c : Char}
    (member : c ∈ symbols.flatMap Symbol.text) : c ∈ chain.print := by
  obtain ⟨symbol, among, member⟩ := List.mem_flatMap.mp member
  exact List.mem_flatMap.mpr ⟨symbol, inside.subset among, member⟩

theorem exists_parts_of_operands {chain : Expression} (wellFormed : chain.WellFormed)
    (plain : '#' ∉ chain.print) {result : Decimal} (came : chain.outcome = .ok result)
    (each : ∀ operand ∈ chain.operands, '#' ∉ operand.symbols.flatMap Symbol.text →
      ∀ {value}, operand.outcome = .ok (.ok value) →
        ∃ part : Part, part.operand = operand ∧ part.Alone) :
    ∃ first rest, (first :: rest).map Part.operand = chain.operands ∧
      ∀ part ∈ first :: rest, part.Alone ∧ part.Plain := by
  have length := ((Chain.wellFormed_iff chain).mp wellFormed).1
  have members : ∀ operand ∈ chain.operands, ∃ part : Part, part.operand = operand ∧
      (part.Alone ∧ part.Plain) := by
    intro operand inside
    have shown : '#' ∉ operand.symbols.flatMap Symbol.text := fun member =>
      plain (mem_print_of_inside (chain.infix_symbols length operand inside) member)
    obtain ⟨value, had⟩ := outcome_of_mem came inside
    obtain ⟨part, rfl, alone⟩ := each operand inside shown had
    exact ⟨part, rfl, alone, shown⟩
  obtain ⟨parts, operands, all⟩ := exists_map_eq members
  cases parts with
  | nil =>
    rw [← operands] at length
    cases length
  | cons first rest => exact ⟨first, rest, operands, all⟩

end Chain

theorem Operand.exists_part (operand : Operand) (wellFormed : operand.WellFormed)
    (plain : '#' ∉ operand.symbols.flatMap Symbol.text) {value : Decimal}
    (came : operand.outcome = .ok (.ok value)) :
    ∃ part : Part, part.operand = operand ∧ part.value = value ∧ part.Alone := by
  induction operand, wellFormed using Operand.WellFormed.induct generalizing value with
  | literal lexeme position =>
    exact ⟨⟨.literal lexeme position, value, [], []⟩, rfl, rfl, Except.ok.inj came⟩
  | group chain wellFormed ih =>
    rw [outcome_group] at came
    obtain ⟨_, settled, same⟩ := Except.map_eq_ok_iff.mp came
    cases same
    have shown := mt (mem_text_group_iff chain).mpr plain
    obtain ⟨first, rest, operands, parts⟩ := Chain.exists_parts_of_operands wellFormed shown settled
      fun operand inside plain _ had => by
        obtain ⟨part, same, _, alone⟩ := ih operand inside plain had
        exact ⟨part, same, alone⟩
    let level := Part.level chain 0 first rest
    refine ⟨⟨.group chain, value, Part.allStored (first :: rest) ++ level.stored,
      Part.allNoted 0 (first :: rest) ++ level.steps.map Step.print⟩, rfl, rfl, ?_⟩
    intro other same progress
    have leaves := Part.evaluate_leaves operands (fun part inside => (parts part inside).1) settled
      same progress
    rw [← Part.lines_raised (fun part inside => (parts part inside).2)] at leaves
    exact leaves

end ExactCalc
