import ExactCalc.Proofs.Text.Trimming
import ExactCalc.Proofs.Token.Lossless
import ExactCalc.Proofs.Window.Run

/-! Blanks around a text are nothing to either front end, and a blank inside it is an error.

The command line and the window each cut the blanks off and go on with what is left. So its length
counts without them, and a position in it is one behind them.
-/

set_option autoImplicit false

namespace ExactCalc

/-- How a text with a blank inside is refused: for its length, or at the first of its characters that
an expression is not written with. -/
inductive RefusesBlank (limits : Limits) (text : List Char) : Report → Prop where
  | tooLong : limits.maxLength < byteLength text →
      RefusesBlank limits text (.tooLong (byteLength text) limits.maxLength)
  | foreign {before after : List Char} {c : Char} : byteLength text ≤ limits.maxLength →
      text = before ++ c :: after → (∀ known ∈ before, Token.IsKnown known) → ¬Token.IsKnown c →
      RefusesBlank limits text
        (.malformed s!"caractère inattendu: '{c}'" (some (byteLength before)))

theorem explain_of_blank (limits : Limits) {text : List Char}
    (blank : ∃ c ∈ text, isBlank c) :
    ∃ error, explain limits text = .error error ∧ RefusesBlank limits text error.report := by
  by_cases long : limits.maxLength < byteLength text
  · have refused : readExpression limits text =
        .error (.tooLong (byteLength text) limits.maxLength) := if_pos long
    exact ⟨_, explain_of_refused refused, .tooLong long⟩
  · obtain ⟨c, member, blank⟩ := blank
    have unknown : ¬∀ c ∈ text, Token.inAlphabet c = true := fun known => by
      have outside := Token.inAlphabet_of_blank blank
      rw [known c member] at outside
      cases outside
    obtain ⟨before, foreign, after, rfl, known, other⟩ := Token.exists_foreign unknown
    have refused : readExpression limits (before ++ foreign :: after) =
        .error (.unexpectedCharacter foreign (byteLength before)) := by
      rw [readExpression, if_neg long, Token.scan_of_foreign known other]
      rfl
    refine ⟨_, explain_of_refused refused, .foreign (Nat.not_lt.mp long) rfl ?_ ?_⟩
    · exact fun c member => (Token.inAlphabet_iff c).mp (known c member)
    · rw [← Token.inAlphabet_iff, other]
      exact Bool.false_ne_true

theorem CommandLine.answerIn_of_trim {line other : List Char}
    (same : trimBlanks line = trimBlanks other) (limits : Limits) (explained : Bool)
    (journal : Journal) :
    answerIn limits explained line journal = answerIn limits explained other journal := by
  unfold answerIn
  rw [same]

namespace Window

variable {window : Window} {event : Event}

theorem evaluate_of_trim {entry other : List Char} (same : trimBlanks entry = trimBlanks other)
    (window : Window) (journal : Journal) :
    ((window.setEntry entry).evaluate journal).map (·.setEntry other) id =
      (window.setEntry other).evaluate journal := by
  unfold evaluate
  change Prod.map _ _ (if (trimBlanks entry).isEmpty then _ else _) =
    if (trimBlanks other).isEmpty then _ else _
  rw [same]
  split
  · rfl
  · simp only [setEntry, same]
    cases explainIn window.limits (trimBlanks other) journal with
    | mk outcome later => cases outcome <;> rfl

theorem handle_of_trim {entry other : List Char} (same : trimBlanks entry = trimBlanks other)
    (evaluates : window.evaluatesOn event) (journal : Journal) :
    ((window.setEntry entry).handle event journal).map (·.setEntry other) id =
      (window.setEntry other).handle event journal := by
  have first : (window.setEntry entry).evaluatesOn event := evaluates
  have second : (window.setEntry other).evaluatesOn event := evaluates
  rw [handle_of_evaluates first, handle_of_evaluates second]
  exact evaluate_of_trim same window.draw journal

theorem handle_of_blank {entry : List Char} (blank : ∃ c ∈ trimBlanks entry, isBlank c)
    (evaluates : window.evaluatesOn event) (journal : Journal) :
    ∃ report, RefusesBlank window.limits (trimBlanks entry) report ∧
      ((window.setEntry entry).handle event journal).1 =
        (window.setEntry entry).draw.setError report.message := by
  obtain ⟨error, refused, report⟩ := explain_of_blank window.limits blank
  obtain ⟨c, member, _⟩ := blank
  have some : trimBlanks entry ≠ [] := List.ne_nil_of_mem member
  have evaluates : (window.setEntry entry).evaluatesOn event := evaluates
  refine ⟨error.report, report, ?_⟩
  rw [handle_of_evaluates evaluates]
  exact @evaluate_of_refused (window.setEntry entry).draw journal some error refused

/-- Blanks around a text change nothing of the answer of the command line, nor of what the window
shows, sets and logs when it evaluates the text as its entry; they only stay in the entry. A text
with a blank left inside is refused by both: for the length of what is left, or at its first character
that an expression is not written with. -/
theorem surrounding_blanks_neutral (evaluates : window.evaluatesOn event) (explained : Bool)
    (text : List Char) (journal : Journal) :
    (∀ (limits : Limits) (before after : List Char), (∀ c ∈ before, isBlank c) →
      (∀ c ∈ after, isBlank c) →
      CommandLine.answerIn limits explained (before ++ text ++ after) journal =
        CommandLine.answerIn limits explained text journal ∧
      ((window.setEntry (before ++ text ++ after)).handle event journal).map
          (·.setEntry text) id = (window.setEntry text).handle event journal) ∧
    ((∃ c ∈ trimBlanks text, isBlank c) →
      (∀ limits : Limits, ∃ report, RefusesBlank limits (trimBlanks text) report ∧
        (CommandLine.answerIn limits explained text journal).1 =
          .error (String.ofList (trimBlanks text) ++ " : " ++ report.message)) ∧
      ∃ report, RefusesBlank window.limits (trimBlanks text) report ∧
        ((window.setEntry text).handle event journal).1 =
          (window.setEntry text).draw.setError report.message) := by
  constructor
  · intro limits before after left right
    have same := trimBlanks_append left right text
    exact ⟨CommandLine.answerIn_of_trim same limits explained journal,
      handle_of_trim same evaluates journal⟩
  · intro blank
    refine ⟨fun limits => ?_, handle_of_blank blank evaluates journal⟩
    obtain ⟨error, refused, report⟩ := explain_of_blank limits blank
    exact ⟨_, report, CommandLine.answerIn_of_refused refused explained journal⟩

theorem surrounding_blanks_neutral_sum :
    let text := "1\u2003+2".toList
    let padded := "\u3000".toList ++ text ++ "\t".toList
    let window := new ⟨256, 6⟩
    CommandLine.answerIn ⟨256, 6⟩ true padded { filter := .off } =
        CommandLine.answerIn ⟨256, 6⟩ true text { filter := .off } ∧
      ((window.setEntry padded).handle (.press .enter) { filter := .off }).1.error =
        "Erreur de syntaxe: caractère inattendu: '\u2003' (position 1)" ∧
      RefusesBlank ⟨256, 5⟩ text (.tooLong 6 5) ∧
      (CommandLine.answerIn ⟨256, 5⟩ true text { filter := .off }).1 =
        .error (String.ofList text ++ " : " ++ "Entrée trop longue (6 octets, limite: 5)") := by
  intro text padded window
  have evaluates : window.evaluatesOn (.press .enter) := rfl
  obtain ⟨neutral, refused⟩ :=
    surrounding_blanks_neutral evaluates true text { filter := .off }
  obtain ⟨answered, shown⟩ := neutral ⟨256, 6⟩ "\u3000".toList "\t".toList
    (List.forall_mem_singleton.mpr rfl) (List.forall_mem_singleton.mpr rfl)
  have error : ((window.setEntry text).handle (.press .enter) { filter := .off }).1.error =
      "Erreur de syntaxe: caractère inattendu: '\u2003' (position 1)" := by decide +kernel
  have blank : ∃ c ∈ trimBlanks text, isBlank c := ⟨'\u2003', by decide, by decide⟩
  obtain ⟨report, refuses, answers⟩ := (refused blank).1 ⟨256, 5⟩
  have trimmed : trimBlanks text = text := by decide
  rw [trimmed] at refuses answers
  have message : (Report.tooLong (byteLength text) 5).message =
      "Entrée trop longue (6 octets, limite: 5)" := by decide +kernel
  rw [← shown] at error
  rw [← message]
  cases refuses with
  | tooLong long => exact ⟨answered, error, .tooLong long, answers⟩
  | foreign short => exact absurd short (by decide)

end Window

end ExactCalc
