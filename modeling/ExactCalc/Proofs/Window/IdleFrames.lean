import ExactCalc.Proofs.Window.Run

/-! Frames in which nothing happens.

A frame hands over the focus that the window asks for, and gives the keypad its place. Nothing else
changes in it, so that a window goes on as it would have without it, until a frame is drawn anyway.
What is different then is an Enter, which evaluates only in the first frame after the focus has been
asked for, and a button of the keypad, which is only hit once it has its place.
-/

set_option autoImplicit false

namespace ExactCalc

namespace Event

def setsEntry : Event → Bool
  | .setEntry _ => true
  | _ => false

def draws : Event → Bool
  | .frame | .click _ | .press _ | .typeDepth _ => true
  | _ => false

end Event

namespace Window

/-- Two windows that show the same and are set the same. They may differ in the focus that they ask
for, and in whether their keypad has its place. -/
structure LooksLike (first second : Window) : Prop where
  entry : first.entry = second.entry
  result : first.result = second.result
  error : first.error = second.error
  panel : first.panel = second.panel
  limits : first.limits = second.limits

theorem LooksLike.refl (window : Window) : window.LooksLike window := ⟨rfl, rfl, rfl, rfl, rfl⟩

def inPlace (window : Window) : Window := { window with laidOut := true }

theorem foldl_frames (window : Window) (count : Nat) :
    (List.replicate count Event.frame).foldl after window =
      if count = 0 then window else window.draw := by
  induction count generalizing window with
  | zero => rfl
  | succ count ih =>
    -- a second frame finds nothing to do
    have again : window.draw.draw = window.draw := rfl
    rw [List.replicate_succ, List.foldl_cons, ih, if_neg (Nat.succ_ne_zero count)]
    change (if count = 0 then window.draw else window.draw.draw) = _
    rw [again, ite_self]

variable {window : Window} {event : Event}

/-! ## One event with a frame before it and without -/

theorem after_inPlace_of_draws (draws : event.draws)
    (hit : ∀ button, event = .click button → button.isOnKeypad → window.laidOut) :
    window.inPlace.after event = window.after event := by
  cases event with
  | frame => rfl
  | click button =>
    by_cases keypad : button.isOnKeypad
    · have laidOut : window.inPlace = window := by
        rw [inPlace, ← hit button rfl keypad]
      rw [laidOut]
    · change (click _ _ _).1 = (click _ _ _).1
      simp only [click, keypad]
      rfl
  | press key =>
    cases key with
    | escape => rfl
    | enter =>
      rw [after_enter, after_enter]
      rfl
  | typeDepth depth => rfl
  | _ => cases draws

theorem after_draw_of_draws (draws : event.draws)
    (unasked : event = .press .enter → window.focused = false)
    (hit : ∀ button, event = .click button → button.isOnKeypad → window.laidOut) :
    window.draw.after event = window.after event := by
  rw [← after_inPlace_of_draws draws hit]
  cases event with
  | press key =>
    cases key with
    | escape => rfl
    | enter =>
      have asked : window.inPlace.focused = false := unasked rfl
      rw [after_enter, after_enter, asked]
      rfl
  | frame => rfl
  | click button => rfl
  | typeDepth depth => rfl
  | _ => cases draws

theorem after_inPlace_of_silent (silent : event.draws = false) :
    window.inPlace.after event = (window.after event).inPlace ∧
      (window.after event).laidOut = window.laidOut := by
  cases event with
  | frame => cases silent
  | click button => cases silent
  | press key => cases silent
  | typeDepth depth => cases silent
  | _ => exact ⟨rfl, rfl⟩

theorem after_draw_of_silent (silent : event.draws = false) (asks : event.setsEntry = false) :
    window.draw.after event = (window.after event).inPlace := by
  cases event with
  | setEntry text => cases asks
  | frame => cases silent
  | click button => cases silent
  | press key => cases silent
  | typeDepth depth => cases silent
  | _ => rfl

/-! ## Runs with frames before them and without -/

theorem foldl_inPlace_looksLike (events : List Event)
    (hit : ∀ button, events.find? (·.draws) = some (.click button) → button.isOnKeypad →
      window.laidOut) :
    (events.foldl after window.inPlace).LooksLike (events.foldl after window) := by
  induction events generalizing window with
  | nil => exact ⟨rfl, rfl, rfl, rfl, rfl⟩
  | cons event rest ih =>
    rw [List.foldl_cons, List.foldl_cons]
    cases draws : event.draws with
    | true =>
      have same : window.inPlace.after event = window.after event :=
        after_inPlace_of_draws draws fun button same =>
          hit button (by rw [List.find?_cons_of_pos draws, same])
      rw [same]
      exact .refl _
    | false =>
      obtain ⟨moved, laidOut⟩ := @after_inPlace_of_silent window event draws
      rw [moved]
      refine ih fun button first keypad => ?_
      rw [laidOut]
      exact hit button (by rwa [List.find?_cons_of_neg (by simp [draws])]) keypad

theorem foldl_draw_looksLike (events : List Event)
    (unasked : events.find? (!·.setsEntry) = some (.press .enter) → window.focused = false)
    (hit : ∀ button, events.find? (·.draws) = some (.click button) → button.isOnKeypad →
      window.laidOut) :
    (events.foldl after window.draw).LooksLike (events.foldl after window) := by
  induction events generalizing window with
  | nil => exact ⟨rfl, rfl, rfl, rfl, rfl⟩
  | cons event rest ih =>
    rw [List.foldl_cons, List.foldl_cons]
    cases sets : event.setsEntry with
    | true =>
      cases event with
      | setEntry text =>
        -- a change of the entry neither asks for the focus nor draws, and the frame is still to come
        exact @ih (window.setEntry text) unasked hit
      | _ => cases sets
    | false =>
      cases draws : event.draws with
      | true =>
        have same : window.draw.after event = window.after event :=
          after_draw_of_draws draws
            (fun same => unasked (by rw [List.find?_cons_of_pos (by simp [sets]), same]))
            fun button same => hit button (by rw [List.find?_cons_of_pos draws, same])
        rw [same]
        exact .refl _
      | false =>
        obtain ⟨_, laidOut⟩ := @after_inPlace_of_silent window event draws
        rw [after_draw_of_silent draws sets]
        refine foldl_inPlace_looksLike rest fun button first keypad => ?_
        rw [laidOut]
        exact hit button (by rwa [List.find?_cons_of_neg (by simp [draws])]) keypad

/-- While frames are drawn and the entry is changed, the window asks for the focus up to the first
frame. -/
theorem focused_foldl_iff (between : List Event)
    (quiet : ∀ event ∈ between, event = .frame ∨ event.setsEntry) :
    (between.foldl after window).focused ↔ window.focused ∧ .frame ∉ between := by
  induction between generalizing window with
  | nil => simp
  | cons event rest ih =>
    obtain ⟨first, others⟩ := List.forall_mem_cons.mp quiet
    rw [List.foldl_cons, ih others]
    rcases first with rfl | sets
    · have drawn : (window.after .frame).focused = false := rfl
      simp [drawn]
    · cases event with
      | setEntry text =>
        have kept : (window.after (.setEntry text)).focused = window.focused := rfl
        simp [kept]
      | _ => cases sets

/-- Frames in which nothing happens change nothing of what is shown or set at any later time, unless
they come between asking for the focus and an Enter, or before the first hit on the keypad of a window
that has never been drawn. An Enter evaluates the entry if no frame has been drawn since the focus
was asked for, and is otherwise lost. -/
theorem idle_frames_neutral (window : Window) (before later : List Event) (count : Nat)
    (journal : Journal) :
    ((later.find? (!·.setsEntry) = some (.press .enter) →
        (window.run before journal).1.focused = false) →
      (∀ button, later.find? (·.draws) = some (.click button) → button.isOnKeypad →
        (window.run before journal).1.laidOut) →
      ∀ part, part <+: later →
        (window.run (before ++ List.replicate count .frame ++ part) journal).1.LooksLike
          (window.run (before ++ part) journal).1) ∧
    ∀ between : List Event, (∀ event ∈ between, event = .frame ∨ event.setsEntry) →
      (window.run (before ++ between ++ [.press .enter]) journal).1 =
        if (window.run before journal).1.focused ∧ .frame ∉ between then
          (window.run (before ++ between) journal).1.draw.evaluated
        else (window.run (before ++ between) journal).1.draw := by
  simp only [run_window, List.foldl_append]
  constructor
  · intro unasked hit part shorter
    rw [foldl_frames]
    split
    · exact .refl _
    · exact foldl_draw_looksLike part (fun first => unasked (shorter.find?_eq_some first))
        fun button first => hit button (shorter.find?_eq_some first)
  · intro between quiet
    change (between.foldl after _).after (.press .enter) = _
    rw [after_enter]
    exact if_congr (focused_foldl_iff between quiet) rfl rfl

def enteredEvents : List Event := [.setEntry "1+2".toList]

def clickedEvents : List Event := [.click .equals, .press .enter]

theorem idle_frames_neutral_clicked :
    ((new {}).run (enteredEvents ++ List.replicate 3 .frame ++ clickedEvents)
        { filter := .off }).1.LooksLike
      ((new {}).run (enteredEvents ++ clickedEvents) { filter := .off }).1 ∧
    ((new {}).run (enteredEvents ++ List.replicate 3 .frame ++ [.press .enter])
      { filter := .off }).1.result = [] := by
  obtain ⟨neutral, enter⟩ :=
    idle_frames_neutral (new {}) enteredEvents clickedEvents 3 { filter := .off }
  refine ⟨neutral nofun nofun _ List.prefix_rfl, ?_⟩
  rw [enter (List.replicate 3 .frame) (by simp)]
  rfl

/-- An idle frame between asking for the focus and an Enter loses the evaluation. -/
theorem not_forall_idle_frames_neutral :
    ¬∀ (window : Window) (before later : List Event) (count : Nat) (journal : Journal),
      (window.run (before ++ List.replicate count .frame ++ later) journal).1.LooksLike
        (window.run (before ++ later) journal).1 := by
  intro claim
  have same := (claim (new {}) enteredEvents [.press .enter] 1 { filter := .off }).result
  have lost : ((new {}).run (enteredEvents ++ List.replicate 1 .frame ++ [.press .enter])
      { filter := .off }).1.result = [] := rfl
  have evaluated : ((new {}).run (enteredEvents ++ [.press .enter]) { filter := .off }).1.result =
      ['3'] := by
    decide +kernel
  rw [lost, evaluated] at same
  cases same

end Window

end ExactCalc
