import ExactCalc.CommandLine.Arrangement
import Mathlib.Data.List.TakeWhile

/-! Switches among arguments, and what they cover.

A switch is written by its long name or its short one, and a value may be attached to it with an
equals sign. Scanning from the left, each switch covers itself, and one that waits for its value the
next argument too, whatever this is. The first separator that is not so covered ends the scan. What
the arrangement puts first is just what is covered.
-/

set_option autoImplicit false

namespace ExactCalc.CommandLine

namespace Switch

theorem ofLong_eq_some_iff {name : List Char} {switch : Switch} :
    ofLong? name = some switch ↔ name = switch.longName := by
  constructor
  · intro found
    have same := List.find?_some found
    exact (of_decide_eq_true same).symm
  · rintro rfl
    cases switch <;> rfl

theorem ofShort_eq_some_iff {name : Char} {switch : Switch} :
    ofShort? name = some switch ↔ switch.shortName = some name := by
  constructor
  · intro found
    have same := List.find?_some found
    simpa using same
  · intro named
    cases switch <;> cases named <;> rfl

theorem equals_not_mem_longName (switch : Switch) : '=' ∉ switch.longName := by
  cases switch <;> decide

theorem equals_ne_shortName {switch : Switch} {name : Char} (named : switch.shortName = some name) :
    '=' ≠ name := by
  cases switch <;> cases named <;> decide

end Switch

def attachment : Option (List Char) → List Char
  | none => []
  | some value => '=' :: value

theorem splitValue_append {name : List Char} (plain : '=' ∉ name) (attached : Option (List Char)) :
    splitValue (name ++ attachment attached) = (name, attached) := by
  have other : ∀ c ∈ name, (c != '=') = true := fun c inside => by
    simpa using ne_of_mem_of_not_mem inside plain
  unfold splitValue
  rw [List.dropWhile_append_of_pos other, List.takeWhile_append_of_pos other]
  cases attached <;> simp [attachment]

theorem append_splitValue (text : List Char) :
    (splitValue text).1 ++ attachment (splitValue text).2 = text := by
  have whole := List.takeWhile_append_dropWhile (p := (· != '=')) (l := text)
  unfold splitValue
  cases rest : text.dropWhile (· != '=') with
  | nil => exact List.append_nil text
  | cons c value =>
    have nonempty : text.dropWhile (· != '=') ≠ [] := by
      rw [rest]
      exact List.cons_ne_nil _ _
    have equals := List.head_dropWhile_not (· != '=') nonempty
    simp only [rest, List.head_cons, bne_eq_false_iff_eq] at equals
    rw [rest, equals] at whole
    exact whole

/-- A switch as it is written. -/
inductive Mention where
  | long (switch : Switch) (attached : Option (List Char))
  | short (switch : Switch) (name : Char) (named : switch.shortName = some name)
      (attached : Option (List Char))

namespace Mention

def switch : Mention → Switch
  | .long switch _ | .short switch _ _ _ => switch

def attached : Mention → Option (List Char)
  | .long _ attached | .short _ _ _ attached => attached

def name : Mention → List Char
  | .long switch _ => '-' :: '-' :: switch.longName
  | .short _ name _ _ => ['-', name]

def text (mention : Mention) : List Char := mention.name ++ attachment mention.attached

def waits (mention : Mention) : Bool := mention.switch.takesValue && mention.attached.isNone

theorem splitValue_text (mention : Mention) :
    splitValue mention.text = (mention.name, mention.attached) := by
  refine splitValue_append ?_ _
  cases mention with
  | long switch attached => simpa [name] using switch.equals_not_mem_longName
  | short switch c named attached => simpa [name] using Switch.equals_ne_shortName named

theorem namedSwitch_text (mention : Mention) :
    namedSwitch? mention.text = some mention.switch := by
  rw [namedSwitch?, splitValue_text]
  cases mention with
  | long switch attached => exact Switch.ofLong_eq_some_iff.mpr rfl
  | short switch c named attached => cases switch <;> cases named <;> rfl

theorem expectsValue_text (mention : Mention) : expectsValue mention.text = mention.waits := by
  rw [expectsValue, namedSwitch_text, splitValue_text, waits]
  cases mention.attached <;> simp

theorem text_ne_separator (mention : Mention) : mention.text ≠ separator := by
  intro same
  have named := mention.namedSwitch_text
  rw [same] at named
  cases named

theorem text_ne_of_unnamed {text : List Char} (mention : Mention)
    (unnamed : namedSwitch? text = none) : mention.text ≠ text := by
  rintro rfl
  rw [mention.namedSwitch_text] at unnamed
  cases unnamed

theorem exists_text {text : List Char} (known : ¬(namedSwitch? text).isNone) :
    ∃ mention : Mention, mention.text = text := by
  rw [← append_splitValue text]
  unfold namedSwitch? at known
  split at known
  · rename_i name same
    cases named : Switch.ofLong? name with
    | none => simp [named] at known
    | some switch =>
      rw [same, Switch.ofLong_eq_some_iff.mp named]
      exact ⟨.long switch _, rfl⟩
  · rename_i c _ same
    cases named : Switch.ofShort? c with
    | none => simp [named] at known
    | some switch =>
      rw [same]
      exact ⟨.short switch c (Switch.ofShort_eq_some_iff.mp named) _, rfl⟩
  · exact absurd rfl known

end Mention

/-- A switch with the argument that it covers beside itself. -/
structure Covered where
  mention : Mention
  following : Option Argument

def Covered.arguments (covered : Covered) : List Argument :=
  .text covered.mention.text :: covered.following.toList

/-- What a scan of arguments finds: the switches with what they cover, and the other arguments up to
the separator and all those after it. -/
inductive Scan : List Argument → List Covered → List Argument → Prop where
  | ended : Scan [] [] []
  | separated (rest : List Argument) : Scan (.text separator :: rest) [] rest
  | free {argument : Argument} {rest : List Argument} {covered : List Covered}
      {free : List Argument} : argument ≠ .text separator →
      (∀ mention : Mention, argument ≠ .text mention.text) → Scan rest covered free →
      Scan (argument :: rest) covered (argument :: free)
  | alone {mention : Mention} {rest : List Argument} {covered : List Covered}
      {free : List Argument} : mention.waits = false → Scan rest covered free →
      Scan (.text mention.text :: rest) (⟨mention, none⟩ :: covered) free
  | valued {mention : Mention} {value : Argument} {rest : List Argument} {covered : List Covered}
      {free : List Argument} : mention.waits = true → Scan rest covered free →
      Scan (.text mention.text :: value :: rest) (⟨mention, some value⟩ :: covered) free
  | lacking {mention : Mention} : mention.waits = true →
      Scan [.text mention.text] [⟨mention, none⟩] []

theorem Arrangement.ofList_text (text : List Char) (rest : List Argument) :
    ofList (.text text :: rest) =
      if text = separator then { expressions := rest }
      else if (namedSwitch? text).isNone then (ofList rest).addExpression (.text text)
      else if expectsValue text then
        match rest with
        | [] => { switches := [.text text] }
        | value :: rest => ((ofList rest).addSwitch value).addSwitch (.text text)
      else (ofList rest).addSwitch (.text text) :=
  ofList.eq_def _

theorem Arrangement.ofList_mention (mention : Mention) (rest : List Argument) :
    ofList (.text mention.text :: rest) =
      if mention.waits then
        match rest with
        | [] => { switches := [.text mention.text] }
        | value :: rest => ((ofList rest).addSwitch value).addSwitch (.text mention.text)
      else (ofList rest).addSwitch (.text mention.text) := by
  rw [ofList_text, if_neg mention.text_ne_separator, mention.namedSwitch_text,
    mention.expectsValue_text, if_neg (by simp)]

/-- The arrangement puts what is covered before what is free. -/
theorem Scan.arrangement_eq {arguments free : List Argument} {covered : List Covered}
    (scan : Scan arguments covered free) :
    Arrangement.ofList arguments = ⟨covered.flatMap Covered.arguments, free⟩ := by
  induction scan with
  | ended => rfl
  | separated rest =>
    rw [Arrangement.ofList_text, if_pos rfl]
    rfl
  | @free argument rest covered free other unnamed _ ih =>
    cases argument with
    | raw bytes =>
      rw [Arrangement.ofList, ih]
      rfl
    | text text =>
      have unknown : (namedSwitch? text).isNone := by
        by_contra known
        obtain ⟨mention, rfl⟩ := Mention.exists_text known
        exact unnamed mention rfl
      rw [Arrangement.ofList_text, if_neg (fun same => other (congrArg _ same)), if_pos unknown, ih]
      rfl
  | alone ready _ ih =>
    simp [Arrangement.ofList_mention, ready, ih, Arrangement.addSwitch, Covered.arguments]
  | valued waits _ ih =>
    simp [Arrangement.ofList_mention, waits, ih, Arrangement.addSwitch, Covered.arguments]
  | lacking waits => simp [Arrangement.ofList_mention, waits, Covered.arguments]

theorem Scan.free_of_unnamed {text : List Char} {rest free : List Argument}
    {covered : List Covered} (other : text ≠ separator) (unnamed : namedSwitch? text = none)
    (scan : Scan rest covered free) : Scan (.text text :: rest) covered (.text text :: free) :=
  .free (fun same => other (Argument.text.inj same))
    (fun mention same => mention.text_ne_of_unnamed unnamed (Argument.text.inj same).symm) scan

theorem exists_scan (arguments : List Argument) : ∃ covered free, Scan arguments covered free := by
  induction arguments using Arrangement.ofList.induct with
  | case1 => exact ⟨_, _, .ended⟩
  | case2 bytes rest ih =>
    obtain ⟨covered, free, scan⟩ := ih
    exact ⟨_, _, .free nofun (fun _ => nofun) scan⟩
  | case3 rest => exact ⟨_, _, .separated rest⟩
  | case4 text rest other unknown ih =>
    obtain ⟨covered, free, scan⟩ := ih
    exact ⟨_, _, scan.free_of_unnamed other (Option.isNone_iff_eq_none.mp unknown)⟩
  | case5 text other known waits =>
    obtain ⟨mention, rfl⟩ := Mention.exists_text known
    rw [mention.expectsValue_text] at waits
    exact ⟨_, _, .lacking waits⟩
  | case6 text other known waits value rest ih =>
    obtain ⟨mention, rfl⟩ := Mention.exists_text known
    obtain ⟨covered, free, scan⟩ := ih
    rw [mention.expectsValue_text] at waits
    exact ⟨_, _, .valued waits scan⟩
  | case7 text rest other known ready ih =>
    obtain ⟨mention, rfl⟩ := Mention.exists_text known
    obtain ⟨covered, free, scan⟩ := ih
    rw [mention.expectsValue_text, Bool.not_eq_true] at ready
    exact ⟨_, _, .alone ready scan⟩

end ExactCalc.CommandLine
