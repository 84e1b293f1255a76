import ExactCalc.CommandLine.Settings
import ExactCalc.Proofs.CommandLine.Switches
import ExactCalc.Proofs.Refusal

/-! What is read from arguments once they are arranged.

The counts and the flag come from the switches covered, and the expressions are the other arguments.
There is one exception: a short name with a value attached is a switch for the arrangement and an
expression for the reader. So with the first of these the expressions begin, and all that follows
it, the separator too, is one.
-/

set_option autoImplicit false

namespace ExactCalc.CommandLine

/-- Whether the reader takes the switch for an expression: a short name with a value attached. -/
def Mention.readsAsExpression : Mention → Bool
  | .short _ _ _ (some _) => true
  | .short _ _ _ none | .long _ _ => false

theorem Mention.readsAsExpression_of_waits {mention : Mention} (waits : mention.waits = true) :
    mention.readsAsExpression = false := by
  cases mention with
  | long switch attached => rfl
  | short switch name named attached =>
    cases attached with
    | none => rfl
    | some value => simp [Mention.waits, attached] at waits

def Covered.given? (covered : Covered) : Option (List Char) :=
  match covered.mention.attached, covered.following with
  | some value, _ => some value
  | none, some (.text value) => some value
  | none, some (.raw _) | none, none => none

def Covered.names (covered : Covered) (switch : Switch) : Bool := covered.mention.switch = switch

/-- The count that a switch is given, once, or nothing where it is not among those covered. -/
inductive Given (switch : Switch) (covered : List Covered) : Option Nat → Prop where
  | absent : covered.filter (·.names switch) = [] → Given switch covered none
  | count {item : Covered} {value : List Char} {number : Nat} :
      covered.filter (·.names switch) = [item] → item.given? = some value →
      readCount? value = some number → Given switch covered (some number)

/-- The counts and the flag are those that the switches covered give, or else those by default. -/
structure Settings.OfSwitches (covered : List Covered) (settings : Settings) : Prop where
  maxDepth : ∃ count, Given .maxDepth covered count ∧
    settings.maxDepth = count.getD Limits.defaultDepth
  maxLength : ∃ count, Given .maxLength covered count ∧
    settings.maxLength = count.getD Limits.defaultLength
  explained : settings.explained = covered.any (·.names .explain)

section

variable {switch : Switch} {covered : List Covered} {item : Covered} {count : Option Nat}

theorem Given.other (given : Given switch covered count) (other : item.names switch = false) :
    Given switch (covered ++ [item]) count := by
  have same : (covered ++ [item]).filter (·.names switch) = covered.filter (·.names switch) := by
    rw [List.filter_append]
    simp [other]
  cases given with
  | absent none => exact .absent (same.trans none)
  | count one value number => exact .count (same.trans one) value number

theorem Given.add (given : Given switch covered none) (named : item.names switch)
    {value : List Char} (gives : item.given? = some value) {number : Nat}
    (read : readCount? value = some number) :
    Given switch (covered ++ [item]) (some number) := by
  cases given with
  | absent none =>
    refine .count ?_ gives read
    rw [List.filter_append, none]
    simp [named]

end

namespace Intake

structure Tally (covered : List Covered) (intake : Intake) : Prop where
  maxDepth : Given .maxDepth covered intake.maxDepth
  maxLength : Given .maxLength covered intake.maxLength
  explained : intake.explained = covered.any (·.names .explain)

def readOn (intake : Intake) (arguments : List Argument) : Except Refusal Settings :=
  arguments.foldlM add intake >>= finish

variable {intake next settled : Intake} {arguments rest : List Argument} {settings : Settings}
  {switch : Switch} {covered : List Covered} {item : Covered}

theorem readOn_nil (intake : Intake) : intake.readOn [] = intake.finish := rfl

theorem exists_add_of_readOn {argument : Argument}
    (read : intake.readOn (argument :: rest) = .ok settings) :
    ∃ next, intake.add argument = .ok next ∧ next.readOn rest = .ok settings := by
  obtain ⟨final, folded, finished⟩ := Except.bind_eq_ok_iff.mp read
  rw [List.foldlM_cons] at folded
  obtain ⟨next, added, later⟩ := Except.bind_eq_ok_iff.mp folded
  refine ⟨next, added, ?_⟩
  rw [readOn, later]
  exact finished

/-! ## Settling the switch that waits -/

theorem settle_of_none (none_waits : intake.pending = none) : intake.settle = .ok intake := by
  rw [settle, none_waits]

theorem settle_of_lacking (lacking : intake.pending = some ⟨switch, none⟩) :
    intake.settle = .error (.missingValue switch) := by
  rw [settle, lacking]

theorem assign_cases {value : List Char} (assigned : intake.assign switch value = .ok next) :
    ∃ number, readCount? value = some number ∧
      (switch = .maxDepth ∧ intake.maxDepth = none ∧
          next = { intake with maxDepth := some number } ∨
        switch = .maxLength ∧ intake.maxLength = none ∧
          next = { intake with maxLength := some number }) := by
  obtain ⟨_, fresh, later⟩ := Except.bind_eq_ok_iff.mp assigned
  have absent : intake.has switch = false := by
    unfold checkNew at fresh
    split at fresh
    · cases fresh
    · rename_i absent
      exact Bool.not_eq_true _ ▸ absent
  split at later
  · cases later
  · rename_i number read
    cases later
    exact ⟨number, read, Or.inl ⟨rfl, by simpa [has] using absent, rfl⟩⟩
  · rename_i number read
    cases later
    exact ⟨number, read, Or.inr ⟨rfl, by simpa [has] using absent, rfl⟩⟩
  · cases later

theorem settle_keeps (came : intake.settle = .ok settled) :
    settled.pending = none ∧ settled.closed = intake.closed ∧
      settled.expressions = intake.expressions := by
  unfold settle at came
  split at came
  · rename_i none_waits
    cases came
    exact ⟨none_waits, rfl, rfl⟩
  · cases came
  · obtain ⟨number, _, ⟨_, _, rfl⟩ | ⟨_, _, rfl⟩⟩ := assign_cases came
    · exact ⟨rfl, rfl, rfl⟩
    · exact ⟨rfl, rfl, rfl⟩

theorem raise_cases (raised : intake.raise switch = .ok next) :
    ∃ settled, intake.settle = .ok settled ∧
      (switch = .explain ∧ next = { settled with explained := true } ∨
        switch.takesValue ∧ next = { settled with pending := some ⟨switch, none⟩ }) := by
  obtain ⟨settled, came, later⟩ := Except.bind_eq_ok_iff.mp raised
  refine ⟨settled, came, ?_⟩
  cases switch with
  | help => cases later
  | version => cases later
  | explain =>
    obtain ⟨_, _, same⟩ := Except.bind_eq_ok_iff.mp later
    cases same
    exact Or.inl ⟨rfl, rfl⟩
  | maxDepth =>
    cases later
    exact Or.inr ⟨rfl, rfl⟩
  | maxLength =>
    cases later
    exact Or.inr ⟨rfl, rfl⟩

theorem addExpression_cases {text : List Char} (added : intake.addExpression text = .ok next) :
    ∃ settled, intake.settle = .ok settled ∧
      next = { settled with closed := true, expressions := text :: settled.expressions } := by
  obtain ⟨settled, came, same⟩ := Except.bind_eq_ok_iff.mp added
  cases same
  exact ⟨settled, came, rfl⟩

/-! ## The tally -/

namespace Tally

theorem nil : Tally [] {} := ⟨.absent rfl, .absent rfl, rfl⟩

theorem carry (tally : Tally covered intake) (pending : Option Pending) (closed : Bool)
    (expressions : List (List Char)) :
    Tally covered { intake with pending, closed, expressions } :=
  ⟨tally.maxDepth, tally.maxLength, tally.explained⟩

theorem assign {value : List Char} (tally : Tally covered intake)
    (assigned : intake.assign switch value = .ok next) (named : item.mention.switch = switch)
    (gives : item.given? = some value) : Tally (covered ++ [item]) next := by
  have silent (other : switch ≠ .explain) :
      intake.explained = (covered ++ [item]).any (·.names .explain) := by
    rw [List.any_append, tally.explained]
    simp [Covered.names, named, other]
  obtain ⟨number, read, ⟨rfl, fresh, rfl⟩ | ⟨rfl, fresh, rfl⟩⟩ := assign_cases assigned
  · exact {
      maxDepth := (fresh ▸ tally.maxDepth).add (by simp [Covered.names, named]) gives read
      maxLength := tally.maxLength.other (by simp [Covered.names, named])
      explained := silent (by decide) }
  · exact {
      maxDepth := tally.maxDepth.other (by simp [Covered.names, named])
      maxLength := (fresh ▸ tally.maxLength).add (by simp [Covered.names, named]) gives read
      explained := silent (by decide) }

theorem explain (tally : Tally covered intake) (named : item.mention.switch = .explain) :
    Tally (covered ++ [item]) { intake with explained := true } where
  maxDepth := tally.maxDepth.other (by simp [Covered.names, named])
  maxLength := tally.maxLength.other (by simp [Covered.names, named])
  explained := by simp [Covered.names, named]

end Tally

/-- The switches covered have been counted, the last perhaps only when what waits is settled. -/
inductive Counted (covered : List Covered) (intake : Intake) : Prop where
  | settled : intake.pending = none → Tally covered intake → Counted covered intake
  | waiting {earlier : List Covered} {item : Covered} {value : List Char} :
      intake.pending = some ⟨item.mention.switch, some value⟩ → item.given? = some value →
      covered = earlier ++ [item] → Tally earlier intake → Counted covered intake

theorem Counted.settle (counted : Counted covered intake) (came : intake.settle = .ok settled) :
    Tally covered settled := by
  cases counted with
  | settled none_waits tally =>
    rw [settle_of_none none_waits] at came
    cases came
    exact tally
  | @waiting earlier item value waits gives last tally =>
    subst last
    rw [Intake.settle, waits] at came
    exact (tally.carry none _ _).assign came rfl gives

structure Open (covered : List Covered) (intake : Intake) : Prop where
  closed : intake.closed = false
  expressions : intake.expressions = []
  counted : Counted covered intake

theorem Open.nil : Open [] {} := ⟨rfl, rfl, .settled rfl .nil⟩

/-! ## Only expressions follow -/

theorem add_of_closed {text : List Char} (closed : intake.closed = true) :
    intake.add (.text text) = intake.addExpression text := by
  rw [add, addText, if_pos closed]

/-- Once closed, the reader takes all arguments for expressions. -/
theorem readOn_of_closed (closed : intake.closed = true) (counted : Counted covered intake)
    (read : intake.readOn arguments = .ok settings) :
    settings.expressions.map Argument.text =
        intake.expressions.reverse.map Argument.text ++ arguments ∧
      settings.OfSwitches covered := by
  induction arguments generalizing intake with
  | nil =>
    rw [readOn_nil] at read
    obtain ⟨settled, came, same⟩ := Except.bind_eq_ok_iff.mp read
    cases same
    have tally := counted.settle came
    rw [List.append_nil, ← (settle_keeps came).2.2]
    exact ⟨rfl, ⟨_, tally.maxDepth, rfl⟩, ⟨_, tally.maxLength, rfl⟩, tally.explained⟩
  | cons argument rest ih =>
    obtain ⟨next, added, later⟩ := exists_add_of_readOn read
    cases argument with
    | raw bytes => cases added
    | text text =>
      rw [add_of_closed closed] at added
      obtain ⟨settled, came, rfl⟩ := addExpression_cases added
      -- What waits is settled with the first expression; later ones find nothing that waits.
      obtain ⟨none_waits, _, expressions⟩ := settle_keeps came
      have tally := counted.settle came
      have onward : Counted covered
          { settled with closed := true, expressions := text :: settled.expressions } :=
        .settled none_waits (tally.carry _ _ _)
      obtain ⟨shown, switches⟩ := ih rfl onward later
      refine ⟨?_, switches⟩
      rw [shown, expressions]
      simp

/-- A switch that lacks its value when the switches end is refused. -/
theorem readOn_ne_ok_of_lacking (closed : intake.closed = true)
    (lacking : intake.pending = some ⟨switch, none⟩) : intake.readOn arguments ≠ .ok settings := by
  intro read
  cases arguments with
  | nil =>
    rw [readOn_nil, finish, settle_of_lacking lacking] at read
    cases read
  | cons argument rest =>
    obtain ⟨next, added, -⟩ := exists_add_of_readOn read
    cases argument with
    | raw bytes => cases added
    | text text =>
      rw [add_of_closed closed, addExpression, settle_of_lacking lacking] at added
      cases added

theorem Open.readOn_separator (opened : Open covered intake) {free : List Argument}
    (read : intake.readOn (.text separator :: free) = .ok settings) :
    settings.expressions.map Argument.text = free ∧ settings.OfSwitches covered := by
  obtain ⟨next, added, later⟩ := exists_add_of_readOn read
  rw [add, addText, opened.closed] at added
  obtain rfl : { intake with closed := true } = next := Except.ok.inj added
  have counted : Counted covered { intake with closed := true } := by
    cases opened.counted with
    | settled none_waits tally => exact .settled none_waits (tally.carry _ _ _)
    | waiting waits gives last tally => exact .waiting waits gives last (tally.carry _ _ _)
  simpa [opened.expressions] using readOn_of_closed rfl counted later

/-! ## A switch as it is written -/

theorem ofText_long (switch : Switch) (attached : Option (List Char)) :
    Reading.ofText (Mention.long switch attached).text = .long switch attached := by
  have split := splitValue_append switch.equals_not_mem_longName attached
  have known : Switch.ofLong? switch.longName = some switch := Switch.ofLong_eq_some_iff.mpr rfl
  change Reading.ofText ('-' :: '-' :: (switch.longName ++ attachment attached)) = _
  cases written : switch.longName ++ attachment attached with
  | nil => cases switch <;> cases written
  | cons c text =>
    rw [written] at split
    simp only [Reading.ofText, split, known]

theorem ofText_short {name : Char} (named : switch.shortName = some name) :
    Reading.ofText (Mention.short switch name named none).text = .short [switch] := by
  cases switch <;> cases named <;> rfl

theorem ofText_short_attached {name : Char} (named : switch.shortName = some name)
    (value : List Char) :
    Reading.ofText (Mention.short switch name named (some value)).text = .plain := by
  cases switch <;> cases named <;> rfl

theorem ofText_short_ne_nil {text : List Char} : Reading.ofText text ≠ .short [] := by
  intro read
  unfold Reading.ofText at read
  split at read
  · cases read
  · dsimp only at read
    split at read <;> cases read
  · rename_i name names _ _
    split at read
    · rename_i switches found
      cases read
      simp [List.mapM_cons, Option.bind_eq_some_iff] at found
    · cases read
  · cases read

theorem exists_value_of_lacking (closed : intake.closed = false)
    (lacking : intake.pending = some ⟨switch, none⟩)
    (read : intake.readOn arguments = .ok settings) :
    ∃ value rest, arguments = .text value :: rest ∧ Reading.ofText value = .plain ∧
      readOn { intake with pending := some ⟨switch, some value⟩ } rest = .ok settings := by
  have stuck := settle_of_lacking lacking
  cases arguments with
  | nil =>
    rw [readOn_nil, finish, stuck] at read
    cases read
  | cons argument rest =>
    obtain ⟨next, added, later⟩ := exists_add_of_readOn read
    cases argument with
    | raw bytes => cases added
    | text value =>
      rw [add, addText, if_neg (by simp [closed])] at added
      cases reading : Reading.ofText value with
      | separator =>
        rw [reading] at added
        cases added
        exact absurd later (readOn_ne_ok_of_lacking rfl lacking)
      | long other attached =>
        rw [reading] at added
        cases attached with
        | none =>
          simp only [raise, stuck] at added
          cases added
        | some attached =>
          simp only [stuck] at added
          split at added <;> cases added
      | short switches =>
        rw [reading] at added
        cases switches with
        | nil => exact absurd reading ofText_short_ne_nil
        | cons first others =>
          simp only [List.foldlM_cons, raise, stuck] at added
          cases added
      | plain =>
        rw [reading, lacking] at added
        cases added
        exact ⟨value, rest, rfl, reading, later⟩

/-! ## One switch after another -/

structure Clear (covered : List Covered) (intake : Intake) : Prop where
  tally : Tally covered intake
  none_waits : intake.pending = none
  closed : intake.closed = false
  expressions : intake.expressions = []

theorem Open.clear (opened : Open covered intake) (came : intake.settle = .ok settled) :
    Clear covered settled := by
  obtain ⟨none_waits, closed, expressions⟩ := settle_keeps came
  exact ⟨opened.counted.settle came, none_waits, closed.trans opened.closed,
    expressions.trans opened.expressions⟩

theorem Clear.opened (clear : Clear covered intake) : Open covered intake :=
  ⟨clear.closed, clear.expressions, .settled clear.none_waits clear.tally⟩

theorem Clear.assign {value : List Char} (clear : Clear covered intake)
    (assigned : intake.assign switch value = .ok next) (named : item.mention.switch = switch)
    (gives : item.given? = some value) : Clear (covered ++ [item]) next := by
  have tally := clear.tally.assign assigned named gives
  obtain ⟨number, _, ⟨_, _, rfl⟩ | ⟨_, _, rfl⟩⟩ := assign_cases assigned
  · exact ⟨tally, clear.none_waits, clear.closed, clear.expressions⟩
  · exact ⟨tally, clear.none_waits, clear.closed, clear.expressions⟩

theorem add_alone {mention : Mention} (closed : intake.closed = false)
    (alone : mention.attached = none) :
    intake.add (.text mention.text) = intake.raise mention.switch := by
  rw [add, addText, if_neg (by simp [closed])]
  cases mention with
  | long switch attached =>
    cases alone
    rw [ofText_long]
    rfl
  | short switch name named attached =>
    cases alone
    rw [ofText_short]
    exact bind_pure _

theorem Open.raise_flag (opened : Open covered intake)
    (flag : item.mention.switch.takesValue = false)
    (raised : intake.raise item.mention.switch = .ok next) : Open (covered ++ [item]) next := by
  obtain ⟨settled, came, ⟨named, rfl⟩ | ⟨takes, -⟩⟩ := raise_cases raised
  · have clear := opened.clear came
    exact ⟨clear.closed, clear.expressions, .settled clear.none_waits (clear.tally.explain named)⟩
  · rw [flag] at takes
    cases takes

theorem Open.add_attached {value : List Char} {following : Option Argument}
    (opened : Open covered intake)
    (added : intake.add (.text (Mention.long switch (some value)).text) = .ok next) :
    Open (covered ++ [⟨.long switch (some value), following⟩]) next := by
  rw [add, addText, if_neg (by simp [opened.closed]), ofText_long] at added
  dsimp only at added
  split at added
  · obtain ⟨settled, came, assigned⟩ := Except.bind_eq_ok_iff.mp added
    exact ((opened.clear came).assign assigned rfl rfl).opened
  · cases added

theorem Open.readOn_alone {mention : Mention} (opened : Open covered intake)
    (ready : mention.waits = false) (switch_only : mention.readsAsExpression = false)
    (read : intake.readOn (.text mention.text :: rest) = .ok settings) :
    ∃ next, Open (covered ++ [⟨mention, none⟩]) next ∧ next.readOn rest = .ok settings := by
  obtain ⟨next, added, later⟩ := exists_add_of_readOn read
  refine ⟨next, ?_, later⟩
  cases attached : mention.attached with
  | none =>
    rw [add_alone opened.closed attached] at added
    exact opened.raise_flag (by simpa [Mention.waits, attached] using ready) added
  | some value =>
    cases mention with
    | long switch given =>
      cases attached
      exact opened.add_attached added
    | short switch name named given =>
      cases attached
      cases switch_only

theorem Open.readOn_waiting {mention : Mention} (opened : Open covered intake)
    (waits : mention.waits = true)
    (read : intake.readOn (.text mention.text :: arguments) = .ok settings) :
    ∃ value rest next, arguments = .text value :: rest ∧ Reading.ofText value = .plain ∧
      Open (covered ++ [⟨mention, some (.text value)⟩]) next ∧
      next.readOn rest = .ok settings := by
  obtain ⟨takes, unattached⟩ : mention.switch.takesValue ∧ mention.attached = none := by
    simpa [Mention.waits] using waits
  obtain ⟨next, added, later⟩ := exists_add_of_readOn read
  rw [add_alone opened.closed unattached] at added
  obtain ⟨settled, came, ⟨named, -⟩ | ⟨_, rfl⟩⟩ := raise_cases added
  · rw [named] at takes
    cases takes
  · have clear := opened.clear came
    have closed : { settled with pending := some ⟨mention.switch, none⟩ }.closed = false :=
      clear.closed
    obtain ⟨value, rest, rfl, plain, finished⟩ := exists_value_of_lacking closed rfl later
    refine ⟨value, rest, _, rfl, plain, ?_, finished⟩
    refine ⟨clear.closed, clear.expressions, ?_⟩
    have gives : Covered.given? ⟨mention, some (.text value)⟩ = some value := by
      rw [Covered.given?, unattached]
    exact .waiting rfl gives rfl (clear.tally.carry _ _ _)

theorem Open.add_plain {text : List Char} (opened : Open covered intake)
    (plain : Reading.ofText text = .plain) :
    intake.add (.text text) = intake.addExpression text := by
  rw [add, addText, if_neg (by simp [opened.closed]), plain]
  cases opened.counted with
  | settled none_waits tally => simp only [none_waits]
  | waiting waits gives last tally => simp only [waits]

theorem Open.readOn_plain {text : List Char} (opened : Open covered intake)
    (plain : Reading.ofText text = .plain)
    (read : intake.readOn (.text text :: rest) = .ok settings) :
    settings.expressions.map Argument.text = .text text :: rest ∧
      settings.OfSwitches covered := by
  obtain ⟨next, added, later⟩ := exists_add_of_readOn read
  rw [opened.add_plain plain] at added
  obtain ⟨settled, came, rfl⟩ := addExpression_cases added
  have clear := opened.clear came
  have onward : Counted covered
      { settled with closed := true, expressions := text :: settled.expressions } :=
    .settled clear.none_waits (clear.tally.carry _ _ _)
  simpa [clear.expressions] using readOn_of_closed rfl onward later

theorem ofText_of_readsAsExpression {mention : Mention}
    (misread : mention.readsAsExpression = true) : Reading.ofText mention.text = .plain := by
  cases mention with
  | long switch attached => cases misread
  | short switch name named attached =>
    cases attached with
    | none => cases misread
    | some value => exact ofText_short_attached named value

end Intake

/-! ## The whole line -/

def taken (covered : List Covered) : List Covered :=
  covered.takeWhile (!·.mention.readsAsExpression)

/-- What the reader takes for expressions: the free arguments, or everything from the first switch
on that it takes for one. -/
def expressionArguments (covered : List Covered) (free : List Argument) : List Argument :=
  match covered.dropWhile (!·.mention.readsAsExpression) with
  | [] => free
  | misread => misread.flatMap Covered.arguments ++ .text separator :: free

/-- What is read after switches that have been read already. -/
theorem Scan.readOn {arguments free : List Argument} {covered before : List Covered}
    {intake : Intake} {settings : Settings} (scan : Scan arguments covered free)
    (opened : intake.Open before) {texts : List Argument}
    (read : intake.readOn (covered.flatMap Covered.arguments ++ .text separator :: texts) =
      .ok settings) :
    settings.expressions.map Argument.text = expressionArguments covered texts ∧
      settings.OfSwitches (before ++ taken covered) := by
  -- The reader never looks back: the intake is all that it has of the switches in `before`.
  induction scan generalizing before intake with
  | ended | separated =>
    rw [taken, List.takeWhile_nil, List.append_nil]
    exact opened.readOn_separator read
  | free _ _ _ ih => exact ih opened read
  | @alone mention rest covered free ready _ ih =>
    change intake.readOn (.text mention.text :: (covered.flatMap Covered.arguments ++
      .text separator :: texts)) = .ok settings at read
    cases misread : mention.readsAsExpression with
    | true =>
      have plain := Intake.ofText_of_readsAsExpression misread
      simpa [expressionArguments, taken, misread, Covered.arguments] using
        opened.readOn_plain plain read
    | false =>
      obtain ⟨next, onward, later⟩ := opened.readOn_alone ready misread read
      simpa [expressionArguments, taken, misread] using ih onward later
  | @valued mention argument rest covered free waits _ ih =>
    change intake.readOn (.text mention.text :: argument :: (covered.flatMap Covered.arguments ++
      .text separator :: texts)) = .ok settings at read
    obtain ⟨value, _, next, same, -, onward, later⟩ := opened.readOn_waiting waits read
    obtain ⟨rfl, rfl⟩ := List.cons.inj same
    have unread := Mention.readsAsExpression_of_waits waits
    simpa [expressionArguments, taken, unread] using ih onward later
  | @lacking mention waits =>
    obtain ⟨value, _, _, same, plain, -⟩ := opened.readOn_waiting waits read
    obtain rfl : separator = value := Argument.text.inj (List.cons.inj same).1
    cases plain

theorem Scan.ofArguments {name : Argument} {arguments free : List Argument}
    {covered : List Covered} {settings : Settings} (scan : Scan arguments covered free)
    (accepted : Settings.ofArguments (name :: arguments) = .ok settings) :
    settings.expressions.map Argument.text = expressionArguments covered free ∧
      settings.OfSwitches (taken covered) := by
  rw [Settings.ofArguments, Settings.read, arrange, List.tail_cons, scan.arrangement_eq] at accepted
  exact scan.readOn .nil accepted

/-- Where no short name has a value attached, the expressions are the free arguments. -/
theorem Scan.ofArguments_free {name : Argument} {arguments free : List Argument}
    {covered : List Covered} {settings : Settings} (scan : Scan arguments covered free)
    (accepted : Settings.ofArguments (name :: arguments) = .ok settings)
    (unattached : ∀ item ∈ covered, item.mention.readsAsExpression = false) :
    settings.expressions.map Argument.text = free ∧ settings.OfSwitches covered := by
  have all : ∀ item ∈ covered, (!item.mention.readsAsExpression) = true := fun item inside => by
    rw [unattached item inside, Bool.not_false]
  obtain ⟨expressions, switches⟩ := scan.ofArguments accepted
  rw [expressionArguments, List.dropWhile_eq_nil_iff.mpr all] at expressions
  rw [taken, List.takeWhile_eq_self_iff.mpr all] at switches
  exact ⟨expressions, switches⟩

/-- What a line that is accepted asks for, by any scan of it. -/
theorem Settings.ofArguments_of_scan {name : Argument} {arguments : List Argument}
    {settings : Settings} (accepted : Settings.ofArguments (name :: arguments) = .ok settings) :
    (∃ covered free, Scan arguments covered free) ∧
    ∀ covered free, Scan arguments covered free →
      settings.expressions.map Argument.text = expressionArguments covered free ∧
      settings.OfSwitches (taken covered) :=
  ⟨exists_scan arguments, fun _ _ scan => scan.ofArguments accepted⟩

theorem Settings.ofArguments_of_scan_mixed :
    Settings.ofArguments (["x", "1+2", "-d", "--profondeur-max", "8", "--", "-d"].map
        fun word => .text word.toList) =
      .ok { maxDepth := 8, explained := true, expressions := ["1+2".toList, "-d".toList] } ∧
    Settings.OfSwitches
      [⟨.short .explain 'd' rfl none, none⟩, ⟨.long .maxDepth none, some (.text ['8'])⟩]
      { maxDepth := 8, explained := true, expressions := ["1+2".toList, "-d".toList] } := by
  have accepted : Settings.ofArguments (["x", "1+2", "-d", "--profondeur-max", "8", "--", "-d"].map
      fun word => .text word.toList) =
      .ok { maxDepth := 8, explained := true, expressions := ["1+2".toList, "-d".toList] } := rfl
  have scan : Scan (["1+2", "-d", "--profondeur-max", "8", "--", "-d"].map
      fun word => .text word.toList)
      [⟨.short .explain 'd' rfl none, none⟩, ⟨.long .maxDepth none, some (.text ['8'])⟩]
      [.text "1+2".toList, .text "-d".toList] :=
    have switches := @Scan.valued (.long .maxDepth none) (.text ['8']) _ _ _ rfl
      (.separated [.text "-d".toList])
    .free_of_unnamed (by decide) rfl (@Scan.alone (.short .explain 'd' rfl none) _ _ _ rfl switches)
  exact ⟨accepted, ((Settings.ofArguments_of_scan accepted).2 _ _ scan).2⟩

/-- The expressions are not always the free arguments: `-V=1` names a switch for the arrangement,
and the reader takes it for an expression, with the separator after it. -/
theorem Settings.not_forall_ofArguments_free :
    ¬∀ (name : Argument) (arguments : List Argument) (settings : Settings),
      Settings.ofArguments (name :: arguments) = .ok settings →
      ∀ covered free, Scan arguments covered free →
        settings.expressions.map Argument.text = free ∧ settings.OfSwitches covered := by
  intro forall_free
  have accepted : Settings.ofArguments [.text ['x'], .text "-V=1".toList, .text ['2']] =
      .ok { expressions := ["-V=1".toList, "--".toList, "2".toList] } := rfl
  have scan : Scan [.text "-V=1".toList, .text ['2']]
      [⟨.short .version 'V' rfl (some ['1']), none⟩] [.text ['2']] :=
    @Scan.alone (.short .version 'V' rfl (some ['1'])) _ _ _ rfl
      (.free_of_unnamed (by decide) rfl .ended)
  obtain ⟨same, -⟩ := forall_free _ _ _ accepted _ _ scan
  revert same
  decide

end ExactCalc.CommandLine
