import ExactCalc.Proofs.Chain.Unbalanced
import ExactCalc.Proofs.Evaluation.LooserLimits
import ExactCalc.Proofs.Window.Run

/-! What a window shows belongs together, whatever has happened to it.

An account stands beside the result that it explains, and never beside an error. The depth may have
been set anew since the evaluation, and the entry changed; so the text is one that evaluates under the
deepest nesting that a window can be set to, and the account itself says which.
-/

set_option autoImplicit false

namespace ExactCalc

def Limits.atCeiling (limits : Limits) : Limits := { limits with maxDepth := depthCeiling }

theorem Explanation.trace_form {limits : Limits} {text : List Char} {whole : Explanation}
    (explained : explain limits text = .ok whole) :
    whole.trace.form = text ∧
      IsGreatest (Symbol.rise '' {before | before <+: Token.symbols text}) whole.trace.depth := by
  have accepted := readExpression_of_explained explained
  obtain ⟨wellFormed, symbols⟩ := symbols_of_accepted accepted
  constructor
  · change whole.expression.print = text
    rw [Chain.print, symbols, Token.flatMap_text_symbols]
  · rw [← symbols]
    exact whole.expression.isGreatest_depth wellFormed

namespace Window

variable {limits : Limits} {window next : Window}

/-- A text evaluates to the result that the window shows, with the account that it shows; the form
in the account is the text and how deep it nests. -/
def ShowsAccountOf (limits : Limits) (text : List Char) (window : Window) : Prop :=
  ∃ (whole : Explanation) (depth : Nat), explain limits text = .ok whole ∧
    window.result = whole.value.print ∧ window.panel = .ofTrace whole.trace ∧
    window.panel.form = text ++ " (profondeur ".toList ++ Nat.toDigits 10 depth ++ [')'] ∧
    IsGreatest (Symbol.rise '' {before | before <+: Token.symbols text}) depth

/-- What a window that was set up with the limits always shows. -/
structure Coherent (limits : Limits) (window : Window) : Prop where
  maxLength : window.limits.maxLength = limits.maxLength
  account : window.panel ≠ {} →
    window.error = "" ∧ ∃ text, window.ShowsAccountOf limits.atCeiling text
  result : window.result = [] ∨ ∃ text whole, explain limits.atCeiling text = .ok whole ∧
    window.result = whole.value.print
  error : window.error ≠ "" → window.panel = {}

theorem new_coherent (limits : Limits) : (new limits).Coherent limits where
  maxLength := rfl
  account shown := absurd rfl shown
  result := Or.inl rfl
  error _ := rfl

theorem Coherent.explain_atCeiling (coherent : window.Coherent limits) {text : List Char}
    {whole : Explanation} (came : explain window.limits text = .ok whole) :
    explain limits.atCeiling text = .ok whole := by
  have length : window.limits.maxLength ≤ limits.atCeiling.maxLength :=
    Nat.le_of_eq coherent.maxLength
  have depth : window.limits.effectiveDepth ≤ limits.atCeiling.effectiveDepth :=
    Nat.min_le_right _ _
  exact explain_ok_loosened length depth came

theorem Coherent.of_change (coherent : window.Coherent limits) (change : Change window next) :
    next.Coherent limits := by
  obtain ⟨maxLength, shows⟩ := change
  have length := maxLength.trans coherent.maxLength
  cases shows with
  | same result error panel =>
    refine ⟨length, ?_, ?_, ?_⟩
    · unfold ShowsAccountOf
      rw [result, error, panel]
      exact coherent.account
    · rw [result]
      exact coherent.result
    · rw [error, panel]
      exact coherent.error
  | nothing result error panel =>
    exact ⟨length, fun shown => absurd panel shown, Or.inl result, fun _ => panel⟩
  | refusal result panel =>
    refine ⟨length, fun shown => absurd panel shown, ?_, fun _ => panel⟩
    rw [result]
    exact coherent.result
  | @answer text whole came result error panel =>
    have came := coherent.explain_atCeiling came
    obtain ⟨form, depth⟩ := Explanation.trace_form came
    refine ⟨length, fun _ => ⟨error, text, whole, whole.trace.depth, came, result, panel, ?_, depth⟩,
      Or.inr ⟨text, whole, came, result⟩, fun wrong => absurd error wrong⟩
    rw [panel, ← form]
    rfl

/-- However events have followed upon each other: an account stands for a text, explains the result
beside it and stands beside no error; a result is the value of some text; and beside an error there
is no account. -/
theorem run_coherent (limits : Limits) (events : List Event) (journal : Journal) :
    ((new limits).run events journal).1.Coherent limits := by
  rw [run_window]
  refine List.foldlRecOn events after (new_coherent limits) fun window coherent event _ => ?_
  exact coherent.of_change (window.change_after event)

def loweredEvents : List Event :=
  [.setEntry "((3+4))*2".toList, .press .enter, .setDepth 1, .press .escape]

theorem run_coherent_lowered :
    ((new {}).run loweredEvents { filter := .off }).1.result = "14".toList ∧
      ∃ text, ((new {}).run loweredEvents { filter := .off }).1.ShowsAccountOf
        ⟨1024, 100000⟩ text := by
  have coherent := run_coherent {} loweredEvents { filter := .off }
  have shown : ((new {}).run loweredEvents { filter := .off }).1.panel ≠ {} := by decide +kernel
  have result : ((new {}).run loweredEvents { filter := .off }).1.result = "14".toList := by
    decide +kernel
  exact ⟨result, (coherent.account shown).2⟩

end Window

end ExactCalc
