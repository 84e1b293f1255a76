import ExactCalc.Window.Event
import ExactCalc.Proofs.CommandLine.Answer

/-! Runs of a window.

The journal is written and never read, so that the window after an event depends on the window before
it and on the event alone. Of what a window shows, an event either keeps everything, or clears
everything, or puts an error in the place of the account, or shows what a text evaluates to.
-/

set_option autoImplicit false

namespace ExactCalc

namespace Window

def run (window : Window) (events : List Event) (journal : Journal) : Window × Journal :=
  events.foldl (fun state event => state.1.handle event state.2) (window, journal)

/-- The window after an event. -/
def after (window : Window) (event : Event) : Window :=
  (window.handle event { filter := .off }).1

def evaluated (window : Window) : Window := (window.evaluate { filter := .off }).1

/-! ## The journal -/

section

variable {window : Window} (journal : Journal)

theorem evaluate_of_empty (empty : trimBlanks window.entry = []) :
    (window.evaluate journal).1 = window.setError "Entrée vide" := by
  simp only [evaluate, empty, List.isEmpty_nil, if_true]

theorem evaluate_of_explained (some : trimBlanks window.entry ≠ []) {explanation : Explanation}
    (came : explain window.limits (trimBlanks window.entry) = .ok explanation) :
    (window.evaluate journal).1 =
      window.setResult explanation.value.print (.ofTrace explanation.trace) := by
  have answered := explainIn_answer window.limits (trimBlanks window.entry) journal
  simp only [evaluate, List.isEmpty_iff, if_neg some]
  cases ran : explainIn window.limits (trimBlanks window.entry) journal with
  | mk outcome later =>
    rw [ran, came] at answered
    obtain rfl : outcome = .ok explanation := answered
    rfl

theorem evaluate_of_refused (some : trimBlanks window.entry ≠ []) {error : EvalError}
    (refused : explain window.limits (trimBlanks window.entry) = .error error) :
    (window.evaluate journal).1 = window.setError error.message := by
  have answered := explainIn_answer window.limits (trimBlanks window.entry) journal
  simp only [evaluate, List.isEmpty_iff, if_neg some]
  cases ran : explainIn window.limits (trimBlanks window.entry) journal with
  | mk outcome later =>
    rw [ran, refused] at answered
    obtain rfl : outcome = .error error := answered
    rfl

end

theorem evaluate_window (window : Window) (journal : Journal) :
    (window.evaluate journal).1 = window.evaluated := by
  unfold evaluated
  by_cases empty : trimBlanks window.entry = []
  · rw [evaluate_of_empty _ empty, evaluate_of_empty _ empty]
  · cases came : explain window.limits (trimBlanks window.entry) with
    | ok explanation =>
      rw [evaluate_of_explained _ empty came, evaluate_of_explained _ empty came]
    | error error => rw [evaluate_of_refused _ empty came, evaluate_of_refused _ empty came]

theorem hit_window (window : Window) (button : Button) (journal other : Journal) :
    (window.hit button journal).1 = (window.hit button other).1 := by
  cases button with
  | equals => exact (window.evaluate_window journal).trans (window.evaluate_window other).symm
  | _ => rfl

theorem handle_window (window : Window) (event : Event) (journal : Journal) :
    (window.handle event journal).1 = window.after event := by
  cases event with
  | click button =>
    change (window.click button journal).1 = (window.click button _).1
    unfold click
    split
    · rfl
    · exact hit_window ..
  | press key =>
    cases key with
    | escape => rfl
    | enter =>
      change (window.press .enter journal).1 = (window.press .enter _).1
      simp only [press]
      split
      · rw [evaluate_window, evaluate_window]
      · rfl
  | _ => rfl

/-- The window that a run leaves depends on the events only. -/
theorem run_window (window : Window) (events : List Event) (journal : Journal) :
    (window.run events journal).1 = events.foldl after window := by
  induction events generalizing window journal with
  | nil => rfl
  | cons event rest ih =>
    have later := ih (window.handle event journal).1 (window.handle event journal).2
    rw [handle_window] at later
    rw [List.foldl_cons, ← later, ← handle_window window event journal]
    rfl

theorem after_enter (window : Window) :
    window.after (.press .enter) =
      if window.focused then window.draw.evaluated else window.draw := by
  rw [← evaluate_window _ { filter := .off }]
  change (if window.focused then window.draw.evaluate _ else (window.draw, _)).1 = _
  split <;> rfl

theorem after_equals (window : Window) :
    window.after (.click .equals) = window.draw.evaluated :=
  evaluate_window _ _

/-- Whether the event has the entry evaluated: the equals button, and an Enter if the focus is asked
for. -/
def evaluatesOn (window : Window) : Event → Bool
  | .click .equals => true
  | .press .enter => window.focused
  | _ => false

theorem handle_of_evaluates {window : Window} {event : Event}
    (evaluates : window.evaluatesOn event) (journal : Journal) :
    window.handle event journal = window.draw.evaluate journal := by
  cases event with
  | click button =>
    cases button with
    | equals => rfl
    | _ => cases evaluates
  | press key =>
    cases key with
    | enter => exact if_pos evaluates
    | escape => cases evaluates
  | _ => cases evaluates

/-! ## What an event can do -/

inductive Shows (window next : Window) : Prop where
  | same (result : next.result = window.result) (error : next.error = window.error)
      (panel : next.panel = window.panel)
  | nothing (result : next.result = []) (error : next.error = "") (panel : next.panel = {})
  | refusal (result : next.result = window.result) (panel : next.panel = {})
  | answer {text : List Char} {explanation : Explanation}
      (came : explain window.limits text = .ok explanation)
      (result : next.result = explanation.value.print) (error : next.error = "")
      (panel : next.panel = .ofTrace explanation.trace)

/-- What an event can do to a window. The entry, the depth and the focus are left open. -/
structure Change (window next : Window) : Prop where
  maxLength : next.limits.maxLength = window.limits.maxLength
  shows : Shows window next

theorem Change.silent {window next : Window}
    (maxLength : next.limits.maxLength = window.limits.maxLength)
    (result : next.result = window.result) (error : next.error = window.error)
    (panel : next.panel = window.panel) : Change window next :=
  ⟨maxLength, .same result error panel⟩

theorem Change.of_draw {window next : Window} (change : Change window.draw next) :
    Change window next := by
  obtain ⟨maxLength, shows⟩ := change
  refine ⟨maxLength, ?_⟩
  cases shows with
  | same result error panel => exact .same result error panel
  | nothing result error panel => exact .nothing result error panel
  | refusal result panel => exact .refusal result panel
  | answer came result error panel => exact .answer came result error panel

theorem change_evaluated (window : Window) : Change window window.evaluated := by
  unfold evaluated
  by_cases empty : trimBlanks window.entry = []
  · rw [evaluate_of_empty _ empty]
    exact ⟨rfl, .refusal rfl rfl⟩
  · cases came : explain window.limits (trimBlanks window.entry) with
    | ok explanation =>
      rw [evaluate_of_explained _ empty came]
      exact ⟨rfl, .answer came rfl rfl rfl⟩
    | error error =>
      rw [evaluate_of_refused _ empty came]
      exact ⟨rfl, .refusal rfl rfl⟩

theorem change_hit (window : Window) (button : Button) (journal : Journal) :
    Change window (window.hit button journal).1 := by
  cases button with
  | clearEntry => exact .silent rfl rfl rfl rfl
  | clearResults => exact ⟨rfl, .nothing rfl rfl rfl⟩
  | clearAll => exact ⟨rfl, .nothing rfl rfl rfl⟩
  | deleteLast => exact .silent rfl rfl rfl rfl
  | equals =>
    change Change window (window.evaluate journal).1
    rw [evaluate_window]
    exact window.change_evaluated
  | insert symbol => exact .silent rfl rfl rfl rfl

theorem change_after (window : Window) (event : Event) : Change window (window.after event) := by
  cases event with
  | setEntry text => exact .silent rfl rfl rfl rfl
  | setDepth depth => exact .silent rfl rfl rfl rfl
  | setError message => exact ⟨rfl, .refusal rfl rfl⟩
  | clearAll => exact ⟨rfl, .nothing rfl rfl rfl⟩
  | clearEntry => exact .silent rfl rfl rfl rfl
  | deleteLast => exact .silent rfl rfl rfl rfl
  | clearResults => exact ⟨rfl, .nothing rfl rfl rfl⟩
  | frame => exact .silent rfl rfl rfl rfl
  | click button =>
    change Change window (window.click button _).1
    unfold click
    split
    · exact .silent rfl rfl rfl rfl
    · exact (change_hit ..).of_draw
  | press key =>
    cases key with
    | escape => exact .silent rfl rfl rfl rfl
    | enter =>
      rw [after_enter]
      split
      · exact window.draw.change_evaluated.of_draw
      · exact .silent rfl rfl rfl rfl
  | typeDepth depth =>
    change Change window (window.typeDepth depth)
    unfold typeDepth
    simp only
    split <;> exact .silent rfl rfl rfl rfl

end Window

end ExactCalc
