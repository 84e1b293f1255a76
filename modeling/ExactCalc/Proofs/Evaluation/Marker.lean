import ExactCalc.Evaluation.Step
import ExactCalc.Proofs.Decimal.RoundTrip

/-! Markers in the lines of an account.

A line of one account stands in another one with the index of each of its markers raised, by the
number of values that were stored before. On the text this reads the digits behind each `#` and
writes them anew; on the step that the text shows it adds to the indices.
-/

set_option autoImplicit false

namespace ExactCalc

namespace Store

/-- Raise the markers in a text. Behind a `#`, `inMarker` skips the digits of the old index. -/
def raiseMarkersFrom (offset : Nat) (inMarker : Bool) : List Char → List Char
  | [] => []
  | c :: rest =>
    if inMarker && c.isDigit then raiseMarkersFrom offset true rest
    else if c = '#' then
      marker (offset + digitsValue (rest.takeWhile Char.isDigit)) ++
        raiseMarkersFrom offset true rest
    else c :: raiseMarkersFrom offset false rest

def raiseMarkers (offset : Nat) (text : List Char) : List Char :=
  raiseMarkersFrom offset false text

/-- No digit comes first, so that a marker before the text ends where the text begins. -/
def EndsMarker (text : List Char) : Prop := ∀ c ∈ text.head?, c.isDigit = false

theorem endsMarker_nil : EndsMarker [] := nofun

theorem endsMarker_cons {c : Char} (other : c.isDigit = false) (rest : List Char) :
    EndsMarker (c :: rest) := by
  rintro _ ⟨⟩
  exact other

theorem raiseMarkersFrom_true_of_ends {text : List Char} (ends : EndsMarker text)
    (offset : Nat) : raiseMarkersFrom offset true text = raiseMarkers offset text := by
  cases text with
  | nil => rfl
  | cons c rest =>
    have other := ends c rfl
    simp only [raiseMarkers, raiseMarkersFrom, other, Bool.and_false]

theorem raiseMarkersFrom_true_digits {digits : List Char} (all : AllDigits digits) (offset : Nat)
    (rest : List Char) :
    raiseMarkersFrom offset true (digits ++ rest) = raiseMarkersFrom offset true rest := by
  induction digits with
  | nil => rfl
  | cons c digits ih =>
    obtain ⟨digit, digits⟩ := List.forall_mem_cons.mp all
    simp only [List.cons_append, raiseMarkersFrom, digit, Bool.and_self, if_true]
    exact ih digits

theorem takeWhile_digits {digits rest : List Char} (all : AllDigits digits)
    (ends : EndsMarker rest) : (digits ++ rest).takeWhile Char.isDigit = digits := by
  rw [List.takeWhile_append_of_pos all]
  cases rest with
  | nil => simp
  | cons c rest => simp [ends c rfl]

theorem raiseMarkers_marker (offset index : Nat) {rest : List Char} (ends : EndsMarker rest) :
    raiseMarkers offset (marker index ++ rest) =
      marker (offset + index) ++ raiseMarkers offset rest := by
  have digits := allDigits_toDigits index
  rw [raiseMarkers, marker, List.cons_append, raiseMarkersFrom, if_neg (by simp), if_pos rfl,
    takeWhile_digits digits ends, digitsValue_toDigits, raiseMarkersFrom_true_digits digits,
    raiseMarkersFrom_true_of_ends ends]

theorem raiseMarkers_cons {c : Char} (other : c ≠ '#') (offset : Nat) (rest : List Char) :
    raiseMarkers offset (c :: rest) = c :: raiseMarkers offset rest := by
  rw [raiseMarkers, raiseMarkersFrom, if_neg (by simp), if_neg other]
  rfl

theorem raiseMarkers_append {text : List Char} (plain : '#' ∉ text) (offset : Nat)
    (rest : List Char) :
    raiseMarkers offset (text ++ rest) = text ++ raiseMarkers offset rest := by
  induction text with
  | nil => rfl
  | cons c text ih =>
    obtain ⟨first, others⟩ := not_or.mp (mt List.mem_cons.mpr plain)
    rw [List.cons_append, raiseMarkers_cons (Ne.symm first), ih others, List.cons_append]

theorem raiseMarkers_of_plain {text : List Char} (plain : '#' ∉ text) (offset : Nat) :
    raiseMarkers offset text = text := by
  have whole := raiseMarkers_append plain offset []
  rwa [List.append_nil, show raiseMarkers offset [] = [] from rfl, List.append_nil] at whole

theorem endsMarker_raiseMarkersFrom (offset : Nat) (text : List Char) :
    EndsMarker (raiseMarkersFrom offset true text) := by
  induction text with
  | nil => exact endsMarker_nil
  | cons c rest ih =>
    rw [raiseMarkersFrom]
    split
    · exact ih
    · split
      · exact endsMarker_cons rfl _
      · rename_i other _
        exact endsMarker_cons (by simpa using other) _

theorem raiseMarkers_raiseMarkers (first second : Nat) (text : List Char) :
    raiseMarkers second (raiseMarkers first text) = raiseMarkers (second + first) text := by
  suffices every : ∀ inMarker, raiseMarkers second (raiseMarkersFrom first inMarker text) =
      raiseMarkersFrom (second + first) inMarker text from every false
  induction text with
  | nil => exact fun _ => rfl
  | cons c rest ih =>
    intro inMarker
    rw [raiseMarkersFrom, raiseMarkersFrom]
    split
    · exact ih true
    · split
      · rw [raiseMarkers_marker _ _ (endsMarker_raiseMarkersFrom first rest), ih true,
          Nat.add_assoc]
      · rename_i other
        rw [raiseMarkers_cons other, ih false]

end Store

/-! ## Forms and steps -/

/-- The form where more values have been stored before. -/
def Form.raised (offset : Nat) : Form → Form
  | .literal lexeme => .literal lexeme
  | .stored index => .stored (offset + index)

def Step.raised (offset : Nat) : Step → Step
  | .group index expression value => .group (offset + index) expression value
  | .negation index form value => .negation (offset + index) (form.raised offset) value
  | .rewriting forms operators => .rewriting (forms.map (Form.raised offset)) operators
  | .reduction a op b result => .reduction a op b result

@[simp] theorem Form.isStored_raised (form : Form) (offset : Nat) :
    (form.raised offset).isStored = form.isStored := by
  cases form <;> rfl

/-- A literal does not look like a marker. -/
def Form.Plain (form : Form) : Prop := ∀ lexeme, form = .literal lexeme → '#' ∉ lexeme

def Step.Plain : Step → Prop
  | .group _ expression _ => '#' ∉ expression.print
  | .negation _ form _ => form.Plain
  | .rewriting forms _ => ∀ form ∈ forms, form.Plain
  | .reduction .. => True

theorem Decimal.not_mem_print (d : Decimal) : '#' ∉ d.print := by
  have unsigned (m : Magnitude) : '#' ∉ m.print := fun member => by
    have literal := m.isLexeme_print.2 _ member
    cases literal
  rw [print]
  split
  · exact List.not_mem_cons_of_ne_of_not_mem (by decide) (unsigned _)
  · exact unsigned _

theorem Operator.symbol_ne (op : Operator) : op.symbol ≠ '#' := by
  cases op <;> decide

theorem Operator.isDigit_symbol (op : Operator) : op.symbol.isDigit = false := by
  cases op <;> rfl

open Store

theorem Form.raiseMarkers_print {form : Form} (plain : form.Plain) (offset : Nat)
    {rest : List Char} (ends : EndsMarker rest) :
    raiseMarkers offset (form.print ++ rest) =
      (form.raised offset).print ++ raiseMarkers offset rest := by
  cases form with
  | literal lexeme => exact raiseMarkers_append (plain lexeme rfl) offset rest
  | stored index => exact raiseMarkers_marker offset index ends

theorem Step.endsMarker_series (pairs : List (Operator × Form)) :
    EndsMarker (pairs.flatMap fun (op, form) => op.symbol :: form.print) := by
  cases pairs with
  | nil => exact endsMarker_nil
  | cons next _ => exact endsMarker_cons next.1.isDigit_symbol _

theorem Step.raiseMarkers_series {pairs : List (Operator × Form)}
    (plain : ∀ pair ∈ pairs, pair.2.Plain) (offset : Nat) :
    raiseMarkers offset (pairs.flatMap fun (op, form) => op.symbol :: form.print) =
      (pairs.map fun (op, form) => (op, form.raised offset)).flatMap
        fun (op, form) => op.symbol :: form.print := by
  induction pairs with
  | nil => rfl
  | cons pair rest ih =>
    obtain ⟨op, form⟩ := pair
    obtain ⟨first, others⟩ := List.forall_mem_cons.mp plain
    rw [List.flatMap_cons, List.map_cons, List.flatMap_cons, List.cons_append,
      raiseMarkers_cons op.symbol_ne, Form.raiseMarkers_print first offset (endsMarker_series rest),
      ih others]
    rfl

theorem Step.raiseMarkers_printForms {forms : List Form} (plain : ∀ form ∈ forms, form.Plain)
    (operators : List Operator) (offset : Nat) :
    raiseMarkers offset (printForms forms operators) =
      printForms (forms.map (Form.raised offset)) operators := by
  cases forms with
  | nil => rfl
  | cons first rest =>
    obtain ⟨head, tail⟩ := List.forall_mem_cons.mp plain
    have members : ∀ pair ∈ operators.zip rest, pair.2.Plain := fun pair member =>
      tail _ (List.of_mem_zip member).2
    rw [printForms, Form.raiseMarkers_print head offset (endsMarker_series _),
      raiseMarkers_series members]
    simp only [List.map_cons, printForms, List.zip_map_right]
    rfl

theorem Step.plain_reduction (a : Decimal) (op : Operator) (b result : Decimal) :
    '#' ∉ (reduction a op b result).print := by
  simp only [print, List.mem_append, List.mem_cons, not_or]
  exact ⟨⟨⟨⟨a.not_mem_print, by decide, (Ne.symm op.symbol_ne), by decide, nofun⟩,
    b.not_mem_print⟩, by decide⟩, result.not_mem_print⟩

/-- Raising the markers in the line of a step gives the line of the raised step. -/
theorem Step.raiseMarkers_print {step : Step} (plain : step.Plain) (offset : Nat) :
    raiseMarkers offset step.print = (step.raised offset).print := by
  cases step with
  | group index expression value =>
    have tail : '#' ∉ " = (".toList ++ expression.print ++ ") = ".toList ++ value.print := by
      simp only [List.mem_append, not_or]
      exact ⟨⟨⟨by decide, plain⟩, by decide⟩, value.not_mem_print⟩
    have ends : EndsMarker (" = (".toList ++ expression.print ++ ") = ".toList ++ value.print) := by
      simp [EndsMarker]
    simp only [print, raised, List.append_assoc] at tail ends ⊢
    rw [raiseMarkers_marker _ _ ends, raiseMarkers_of_plain tail]
  | negation index form value =>
    have tail : '#' ∉ " = ".toList ++ value.print := by
      simp only [List.mem_append, not_or]
      exact ⟨by decide, value.not_mem_print⟩
    have ends : EndsMarker (" = ".toList ++ value.print) := by simp [EndsMarker]
    have whole : EndsMarker (" = -".toList ++ (form.print ++ (" = ".toList ++ value.print))) := by
      simp [EndsMarker]
    simp only [print, raised, List.append_assoc]
    rw [raiseMarkers_marker _ _ whole, raiseMarkers_append (by decide),
      Form.raiseMarkers_print plain _ ends, raiseMarkers_of_plain tail]
  | rewriting forms operators =>
    rw [print, raiseMarkers_append (by decide), raiseMarkers_printForms plain]
    rfl
  | reduction a op b result => exact raiseMarkers_of_plain (plain_reduction a op b result) offset

end ExactCalc
