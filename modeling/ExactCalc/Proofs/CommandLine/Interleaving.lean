import ExactCalc.CommandLine.Program
import ExactCalc.Proofs.CommandLine.Switches

/-! Switches and expressions mixed on one line.

Arranging takes a line apart. The switches with what they cover and the other arguments keep their
order, and each argument goes to one side; only the separator that ends the switches is left out.
Conversely, in whatever way switches and expressions are mixed, they are taken apart alike, so the
program does the same.
-/

set_option autoImplicit false

namespace ExactCalc.CommandLine

def Covered.IsWhole (covered : Covered) : Prop := covered.following.isSome = covered.mention.waits

def Argument.IsFree (argument : Argument) : Prop :=
  argument ≠ .text separator ∧ ∀ mention : Mention, argument ≠ .text mention.text

theorem Argument.IsFree.of_unnamed {text : List Char} (other : text ≠ separator)
    (unnamed : namedSwitch? text = none) : (Argument.text text).IsFree :=
  ⟨fun same => other (Argument.text.inj same),
    fun mention same => mention.text_ne_of_unnamed unnamed (Argument.text.inj same).symm⟩

/-- Switches and free arguments mixed into one line, each in their order. A switch and what it
covers stay side by side. -/
inductive Mixed : List Covered → List Argument → List Argument → Prop where
  | nil : Mixed [] [] []
  | switch {item : Covered} {covered : List Covered} {free line : List Argument} :
      item.IsWhole → Mixed covered free line →
      Mixed (item :: covered) free (item.arguments ++ line)
  | free {argument : Argument} {covered : List Covered} {free line : List Argument} :
      argument.IsFree → Mixed covered free line →
      Mixed covered (argument :: free) (argument :: line)

/-- A line taken apart into switches, with what they cover, and expressions. Behind what is mixed
there may be a separator, and then all are expressions, or a switch that lacks its value. -/
inductive TakenApart : List Argument → List Argument → List Argument → Prop where
  | plain {covered : List Covered} {free line : List Argument} : Mixed covered free line →
      TakenApart line (covered.flatMap Covered.arguments) free
  | separated {covered : List Covered} {free front : List Argument} (late : List Argument) :
      Mixed covered free front →
      TakenApart (front ++ .text separator :: late) (covered.flatMap Covered.arguments)
        (free ++ late)
  | lacking {covered : List Covered} {free front : List Argument} {mention : Mention} :
      Mixed covered free front → mention.waits = true →
      TakenApart (front ++ [.text mention.text])
        (covered.flatMap Covered.arguments ++ [.text mention.text]) free

section

variable {covered : List Covered} {free line switches expressions : List Argument}

/-! ## Taking apart -/

theorem Mixed.switches_sublist (mixed : Mixed covered free line) :
    (covered.flatMap Covered.arguments).Sublist line := by
  induction mixed with
  | nil => exact .slnil
  | @switch item _ _ _ _ _ ih => exact ih.append_left item.arguments
  | @free argument _ _ _ _ _ ih => exact ih.cons argument

theorem Mixed.free_sublist (mixed : Mixed covered free line) : free.Sublist line := by
  induction mixed with
  | nil => exact .slnil
  | @switch item _ _ _ _ _ ih => exact ih.trans (List.sublist_append_right item.arguments _)
  | @free argument _ _ _ _ _ ih => exact ih.cons_cons argument

theorem TakenApart.switches_sublist (taken : TakenApart line switches expressions) :
    switches.Sublist line := by
  cases taken with
  | plain mixed => exact mixed.switches_sublist
  | separated late mixed => exact mixed.switches_sublist.trans (List.sublist_append_left _ _)
  | lacking mixed _ => exact mixed.switches_sublist.append_right _

theorem TakenApart.expressions_sublist (taken : TakenApart line switches expressions) :
    expressions.Sublist line := by
  cases taken with
  | plain mixed => exact mixed.free_sublist
  | separated late mixed => exact mixed.free_sublist.append (List.sublist_cons_self _ late)
  | lacking mixed _ => exact mixed.free_sublist.trans (List.sublist_append_left _ _)

theorem TakenApart.cons_free {argument : Argument} (isFree : argument.IsFree)
    (taken : TakenApart line switches expressions) :
    TakenApart (argument :: line) switches (argument :: expressions) := by
  cases taken with
  | plain mixed => exact .plain (mixed.free isFree)
  | separated late mixed => exact .separated late (mixed.free isFree)
  | lacking mixed waits => exact .lacking (mixed.free isFree) waits

theorem TakenApart.append_switch {item : Covered} (whole : item.IsWhole)
    (taken : TakenApart line switches expressions) :
    TakenApart (item.arguments ++ line) (item.arguments ++ switches) expressions := by
  cases taken with
  | plain mixed => exact .plain (mixed.switch whole)
  | separated late mixed =>
    rw [← List.append_assoc]
    exact .separated late (mixed.switch whole)
  | lacking mixed waits =>
    rw [← List.append_assoc, ← List.append_assoc]
    exact .lacking (mixed.switch whole) waits

theorem Scan.takenApart (scan : Scan line covered free) :
    TakenApart line (covered.flatMap Covered.arguments) free := by
  induction scan with
  | ended => exact .plain .nil
  | separated rest => exact .separated rest .nil
  | free other unnamed _ ih => exact ih.cons_free ⟨other, unnamed⟩
  | @alone mention _ _ _ ready _ ih =>
    have whole : Covered.IsWhole ⟨mention, none⟩ := ready.symm
    exact ih.append_switch whole
  | @valued mention value _ _ _ waits _ ih =>
    have whole : Covered.IsWhole ⟨mention, some value⟩ := waits.symm
    exact ih.append_switch whole
  | lacking waits => exact .lacking .nil waits

theorem Mixed.scan_append {last : List Covered} {rest late : List Argument}
    (mixed : Mixed covered free line) (scan : Scan rest last late) :
    Scan (line ++ rest) (covered ++ last) (free ++ late) := by
  induction mixed with
  | nil => exact scan
  | @switch item _ _ _ whole _ ih =>
    obtain ⟨mention, following⟩ := item
    cases following with
    | none => exact .alone whole.symm ih
    | some value => exact .valued whole.symm ih
  | free isFree _ ih => exact .free isFree.1 isFree.2 ih

theorem TakenApart.arrangement_eq (taken : TakenApart line switches expressions) :
    Arrangement.ofList line = ⟨switches, expressions⟩ := by
  cases taken with
  | plain mixed =>
    have scan := mixed.scan_append .ended
    simpa using scan.arrangement_eq
  | separated late mixed =>
    have scan := mixed.scan_append (.separated late)
    simpa using scan.arrangement_eq
  | lacking mixed waits =>
    have scan := mixed.scan_append (.lacking waits)
    simpa [Covered.arguments] using scan.arrangement_eq

theorem TakenApart.arrange_eq (taken : TakenApart line switches expressions) (name : Argument) :
    arrange (name :: line) = name :: switches ++ .text separator :: expressions := by
  rw [arrange, List.tail_cons, taken.arrangement_eq]
  rfl

/-- Arranging loses nothing and keeps the order on both sides, and there is but one way to take a
line apart. -/
theorem arrange_takesApart (name : Argument) (arguments : List Argument) :
    ∃ switches expressions,
      arrange (name :: arguments) = name :: switches ++ .text separator :: expressions ∧
      TakenApart arguments switches expressions ∧
      switches.Sublist arguments ∧ expressions.Sublist arguments ∧
      ∀ others rest, TakenApart arguments others rest → others = switches ∧ rest = expressions := by
  obtain ⟨covered, free, scan⟩ := exists_scan arguments
  have taken := scan.takenApart
  refine ⟨_, _, taken.arrange_eq name, taken, taken.switches_sublist, taken.expressions_sublist, ?_⟩
  intro others rest also
  exact Arrangement.mk.inj (also.arrangement_eq.symm.trans taken.arrangement_eq)

example :
    arrange (["x", "1", "--longueur-max", "--", "-d", "-2", "--", "--", "-d"].map
        fun word => .text word.toList) =
      ["x", "--longueur-max", "--", "-d", "--", "1", "-2", "--", "-d"].map
        fun word => .text word.toList := by
  decide

/-! ## Mixing -/

/-- The switches may stand anywhere among the expressions. -/
theorem run_of_mixed (mixed : Mixed covered free line) (name : Argument) :
    arrange (name :: line) =
        name :: covered.flatMap Covered.arguments ++ .text separator :: free ∧
    ∀ other, Mixed covered free other →
      Settings.ofArguments (name :: other) = Settings.ofArguments (name :: line) ∧
      ∀ filter, run filter (name :: other) = run filter (name :: line) := by
  have arranged := (TakenApart.plain mixed).arrange_eq name
  refine ⟨arranged, fun other otherwise => ?_⟩
  have same : Settings.ofArguments (name :: other) = Settings.ofArguments (name :: line) := by
    simp only [Settings.ofArguments, arranged, (TakenApart.plain otherwise).arrange_eq name]
  constructor
  · exact same
  · intro filter
    simp only [run, same]

theorem run_of_mixed_trailing :
    Mixed [⟨.long .maxDepth none, some (.text ['8'])⟩, ⟨.short .explain 'd' rfl none, none⟩]
      [.text ['1'], .text ['-', '2']]
      (["1", "--profondeur-max", "8", "-2", "-d"].map fun word => .text word.toList) ∧
    Mixed [⟨.long .maxDepth none, some (.text ['8'])⟩, ⟨.short .explain 'd' rfl none, none⟩]
      [.text ['1'], .text ['-', '2']]
      (["--profondeur-max", "8", "-d", "1", "-2"].map fun word => .text word.toList) ∧
    Settings.ofArguments
        (["x", "--profondeur-max", "8", "-d", "1", "-2"].map fun word => .text word.toList) =
      Settings.ofArguments
        (["x", "1", "--profondeur-max", "8", "-2", "-d"].map fun word => .text word.toList) := by
  have first : Argument.IsFree (.text ['1']) := .of_unnamed (by decide) rfl
  have second : Argument.IsFree (.text ['-', '2']) := .of_unnamed (by decide) rfl
  have depth : Covered.IsWhole ⟨.long .maxDepth none, some (.text ['8'])⟩ := rfl
  have explained : Covered.IsWhole ⟨.short .explain 'd' rfl none, none⟩ := rfl
  have mixed := Mixed.free first (.switch depth (.free second (.switch explained .nil)))
  have otherwise := Mixed.switch depth (.switch explained (.free first (.free second .nil)))
  exact ⟨mixed, otherwise, ((run_of_mixed mixed (.text ['x'])).2 _ otherwise).1⟩

end

end ExactCalc.CommandLine
