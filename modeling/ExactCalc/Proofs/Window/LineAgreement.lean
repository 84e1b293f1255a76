import ExactCalc.Proofs.Window.Run

/-! The window answers an entry as the command line answers the same text.

Both cut the blanks off its ends and evaluate what is left under their limits. The window keeps the
result or the error apart from the text; the command line puts the text before either. Only an entry
of blanks they treat apart, and both refuse it.
-/

set_option autoImplicit false

namespace ExactCalc

theorem Report.message_ne_empty (report : Report) : report.message ≠ "" := by
  have syntaxHead : "Erreur de syntaxe: " ≠ "" := by decide
  have arithmeticHead : "Erreur arithmétique: " ≠ "" := by decide
  have depthHead : "Imbrication trop profonde (limite: " ≠ "" := by decide
  have lengthHead : "Entrée trop longue (" ≠ "" := by decide
  -- comparing a whole message with the empty text would compute with its parts
  unfold Report.message
  split <;>
    simp only [ne_eq, toString, String.append_eq_empty_iff, syntaxHead, arithmeticHead, depthHead,
      lengthHead, false_and, not_false_eq_true]

theorem readExpression_nil (limits : Limits) :
    readExpression limits [] = .error (.misplaced 0) := by
  rw [readExpression, byteLength_nil, if_neg (Nat.not_lt_zero _)]
  rfl

namespace Window

section

variable {window : Window} (journal : Journal)

theorem equals_of_empty (empty : trimBlanks window.entry = []) :
    (window.handle (.click .equals) journal).1 = window.draw.setError "Entrée vide" := by
  rw [handle_window, after_equals]
  exact @evaluate_of_empty window.draw _ empty

theorem equals_of_explained (some : trimBlanks window.entry ≠ []) {explanation : Explanation}
    (came : explain window.limits (trimBlanks window.entry) = .ok explanation) :
    (window.handle (.click .equals) journal).1 =
      window.draw.setResult explanation.value.print (.ofTrace explanation.trace) := by
  rw [handle_window, after_equals]
  exact @evaluate_of_explained window.draw _ some explanation came

theorem equals_of_refused (some : trimBlanks window.entry ≠ []) {error : EvalError}
    (refused : explain window.limits (trimBlanks window.entry) = .error error) :
    (window.handle (.click .equals) journal).1 = window.draw.setError error.message := by
  rw [handle_window, after_equals]
  exact @evaluate_of_refused window.draw _ some error refused

end

/-- What the equals button does agrees with the answer that the command line gives without an
account. Of an entry that is not blank, the window shows a result and no error where the answer
equates the text with it; otherwise it shows the error that the answer names and keeps its result. Of
a blank entry, both are refusals. -/
theorem equals_agrees_with_answer (window : Window) (journal other : Journal) :
    let shown := (window.handle (.click .equals) journal).1
    let text := trimBlanks window.entry
    let answer := (CommandLine.answerIn window.limits false window.entry other).1
    (text ≠ [] →
      (∀ result, (shown.error = "" ∧ shown.result = result) ↔
        answer = .ok (String.ofList (text ++ " = ".toList ++ result))) ∧
      (shown.error ≠ "" → shown.result = window.result) ∧
      ∀ message, (shown.error ≠ "" ∧ shown.error = message ∧ shown.result = window.result) ↔
        answer = .error (String.ofList text ++ " : " ++ message)) ∧
    (text = [] → shown.error = "Entrée vide" ∧ shown.result = window.result ∧
      ∃ message, answer = .error message) := by
  intro shown text answer
  constructor
  · intro some
    cases came : explain window.limits text with
    | ok whole =>
      have shows : shown = window.draw.setResult whole.value.print (.ofTrace whole.trace) :=
        equals_of_explained journal some came
      have answered : answer = .ok (String.ofList (text ++ " = ".toList ++ whole.value.print)) := by
        have equation := CommandLine.answerIn_of_explained came false other
        rwa [if_neg Bool.false_ne_true, String.empty_append] at equation
      rw [shows, answered]
      refine ⟨fun result => ?_, fun wrong => absurd rfl wrong,
        fun message => ⟨fun wrong => absurd rfl wrong.1, nofun⟩⟩
      rw [Except.ok.injEq, String.ofList_inj, List.append_cancel_left_eq]
      exact ⟨fun same => same.2, fun same => ⟨rfl, same⟩⟩
    | error error =>
      have shows : shown = window.draw.setError error.message :=
        equals_of_refused journal some came
      have answered : answer = .error (String.ofList text ++ " : " ++ error.message) :=
        CommandLine.answerIn_of_refused came false other
      have words : shown.error = error.message := by
        rw [shows]
        rfl
      have kept : shown.result = window.result := by
        rw [shows]
        rfl
      have wrong : error.message ≠ "" := error.report.message_ne_empty
      rw [answered, words]
      refine ⟨fun result => ⟨fun right => absurd right.1 wrong, nofun⟩, fun _ => kept,
        fun message => ?_⟩
      rw [Except.error.injEq, String.append_right_inj]
      exact ⟨fun same => same.2.1, fun same => ⟨wrong, same, kept⟩⟩
  · intro empty
    have refused : explain window.limits text = .error (.misplaced 0) := by
      rw [empty]
      exact explain_of_refused (readExpression_nil window.limits)
    have shows : shown = window.draw.setError "Entrée vide" := equals_of_empty journal empty
    rw [shows]
    exact ⟨rfl, rfl, _, CommandLine.answerIn_of_refused refused false other⟩

def dividing : Window := { new ⟨2, 40⟩ with entry := "\t1/(0) ".toList, result := ['7'] }

theorem equals_agrees_with_answer_dividing :
    let message := "Erreur arithmétique: division par zéro (1 / 0)"
    (CommandLine.answerIn ⟨2, 40⟩ false dividing.entry { filter := .off }).1 =
        .error ("1/(0)" ++ " : " ++ message) ∧
      (dividing.handle (.click .equals) { filter := .off }).1.error = message ∧
      (dividing.handle (.click .equals) { filter := .off }).1.result = ['7'] := by
  intro message
  have some : trimBlanks dividing.entry ≠ [] := by decide +kernel
  have answered :
      (CommandLine.answerIn ⟨2, 40⟩ false dividing.entry { filter := .off }).1 =
        .error (String.ofList (trimBlanks dividing.entry) ++ " : " ++ message) := by
    decide +kernel
  obtain ⟨_, _, refusal⟩ :=
    (equals_agrees_with_answer dividing { filter := .off } { filter := .off }).1 some
  obtain ⟨_, shown, kept⟩ := (refusal message).mpr answered
  exact ⟨by decide +kernel, shown, kept⟩

end Window

end ExactCalc
