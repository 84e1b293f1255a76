import ExactCalc.CommandLine.Line
import ExactCalc.Proofs.Evaluation.Transcript

/-! Answers with the account of an evaluation and without it.

An account is kept beside an evaluation, and a journal too. Neither is ever read, so both ways come
to the outcome of the chain that the text is read as, and a text that cannot be read is refused in
the same words.
-/

set_option autoImplicit false

namespace ExactCalc

theorem explainIn_answer (limits : Limits) (text : List Char) (journal : Journal) :
    (explainIn limits text journal).1 = explain limits text := by
  cases accepted : readExpression limits text with
  | error error => rw [explainIn_of_refused accepted, explain_of_refused accepted]
  | ok result =>
    obtain ⟨tokens, chain⟩ := result
    obtain ⟨outcome, stored, steps, came, _⟩ :=
      explainIn_of_adds accepted (evaluate_adds_of_accepted accepted)
    rw [explain, came, came]

theorem evaluateIn_answer (limits : Limits) (text : List Char) (journal : Journal) :
    (evaluateIn limits text journal).1 = Explanation.value <$> explain limits text := by
  cases accepted : readExpression limits text with
  | error error =>
    rw [evaluateIn_of_refused accepted, explain_of_refused accepted]
    rfl
  | ok result => rw [evaluateIn_eq_outcome accepted, map_value_explain accepted]

namespace CommandLine

variable {limits : Limits} {line : List Char}

theorem answerIn_of_refused {error : EvalError}
    (refused : explain limits (trimBlanks line) = .error error) (explained : Bool)
    (journal : Journal) :
    (answerIn limits explained line journal).1 =
      .error (String.ofList (trimBlanks line) ++ " : " ++ error.message) := by
  unfold answerIn
  cases explained with
  | false =>
    have failed := evaluateIn_answer limits (trimBlanks line) journal
    rw [refused] at failed
    simp only [Bool.false_eq_true, if_false, failed]
    rfl
  | true =>
    have failed := explainIn_answer limits (trimBlanks line) journal
    rw [refused] at failed
    simp only [if_true, failed]

theorem answerIn_of_explained {whole : Explanation}
    (came : explain limits (trimBlanks line) = .ok whole) (explained : Bool) (journal : Journal) :
    (answerIn limits explained line journal).1 =
      .ok ((if explained then String.ofList whole.trace.print else "") ++
        String.ofList (trimBlanks line ++ " = ".toList ++ whole.value.print)) := by
  unfold answerIn
  cases explained with
  | false =>
    have answered := evaluateIn_answer limits (trimBlanks line) journal
    rw [came] at answered
    simp only [Bool.false_eq_true, if_false, answered]
    rw [String.empty_append]
    rfl
  | true =>
    have answered := explainIn_answer limits (trimBlanks line) journal
    rw [came] at answered
    simp only [if_true, answered]

theorem answer_ok_iff {limits : Limits} {explained : Bool} {line : List Char} :
    (∃ text, answer limits explained line = .ok text) ↔
      ∃ value, evaluate limits (trimBlanks line) = .ok value := by
  have evaluated : evaluate limits (trimBlanks line) =
      Explanation.value <$> explain limits (trimBlanks line) := evaluateIn_answer ..
  rw [evaluated]
  cases came : explain limits (trimBlanks line) with
  | error error =>
    rw [answer, answerIn_of_refused came]
    exact ⟨nofun, nofun⟩
  | ok whole =>
    rw [answer, answerIn_of_explained came]
    exact ⟨fun _ => ⟨_, rfl⟩, fun _ => ⟨_, rfl⟩⟩

/-- Keeping an account changes no answer. The value is the one without an account, the answer has
the account in front and is otherwise the same, and a refusal is the same, whatever the journals
admit. -/
theorem explained_answer_agrees (limits : Limits) (text line : List Char)
    (journal other : Journal) :
    (∀ value, (evaluateIn limits text other).1 = .ok value ↔
      ∃ whole : Explanation, (explainIn limits text journal).1 = .ok whole ∧ whole.value = value) ∧
    (∀ error, (evaluateIn limits text other).1 = .error error ↔
      (explainIn limits text journal).1 = .error error) ∧
    (∀ shown, (answerIn limits false line other).1 = .ok shown ↔
      ∃ whole : Explanation, (explainIn limits (trimBlanks line) journal).1 = .ok whole ∧
        (answerIn limits true line journal).1 =
          .ok (String.ofList whole.trace.print ++ shown)) ∧
    ∀ message, (answerIn limits false line other).1 = .error message ↔
      (answerIn limits true line journal).1 = .error message := by
  rw [evaluateIn_answer, explainIn_answer, explainIn_answer]
  refine ⟨fun value => Except.map_eq_ok_iff, fun error => Except.map_eq_error_iff,
    fun shown => ?_, fun message => ?_⟩
  · cases came : explain limits (trimBlanks line) with
    | error cause =>
      rw [answerIn_of_refused came]
      exact ⟨nofun, fun ⟨_, same, _⟩ => nomatch same⟩
    | ok whole =>
      rw [answerIn_of_explained came, answerIn_of_explained came]
      rw [if_neg Bool.false_ne_true, if_pos rfl, String.empty_append]
      constructor
      · rintro ⟨⟩
        exact ⟨whole, rfl, rfl⟩
      · rintro ⟨_, ⟨⟩, same⟩
        exact congrArg Except.ok ((String.append_right_inj _).mp (Except.ok.inj same))
  · cases came : explain limits (trimBlanks line) with
    | error cause => rw [answerIn_of_refused came, answerIn_of_refused came]
    | ok whole =>
      rw [answerIn_of_explained came, answerIn_of_explained came]
      exact ⟨nofun, nofun⟩

end CommandLine

end ExactCalc
