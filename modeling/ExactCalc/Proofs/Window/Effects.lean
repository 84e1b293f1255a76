import ExactCalc.Proofs.Window.LineAgreement
import ExactCalc.Proofs.Window.Run

/-! What events leave alone in a window.

The entry, what is shown of an evaluation, and the depth are each changed by some events only, and
the longest text by none. What an event leaves alone a run of such events leaves alone. The keypad
takes back what it has put in, if its first button has been hit.
-/

set_option autoImplicit false

namespace ExactCalc

/-! ## What is announced -/

namespace Button

def editsEntry : Button → Bool
  | .insert _ | .deleteLast | .clearEntry | .clearAll => true
  | .clearResults | .equals => false

def clearsResults : Button → Bool
  | .clearResults | .clearAll => true
  | .insert _ | .deleteLast | .clearEntry | .equals => false

end Button

namespace Event

def editsEntry : Event → Bool
  | .setEntry _ | .deleteLast | .clearEntry | .clearAll | .press .escape => true
  | .click button => button.editsEntry
  | _ => false

def replacesShown : Event → Bool
  | .setError _ | .clearResults | .clearAll => true
  | .click button => button.clearsResults
  | _ => false

def setsDepth : Event → Bool
  | .setDepth _ | .typeDepth _ | .clearAll | .click .clearAll => true
  | _ => false

end Event

namespace Window

def shown (window : Window) : List Char × String × Panel :=
  (window.result, window.error, window.panel)

def changesShown (window : Window) (event : Event) : Bool :=
  event.replacesShown || window.evaluatesOn event

def Fails (window : Window) : Prop :=
  trimBlanks window.entry = [] ∨
    ∃ error, explain window.limits (trimBlanks window.entry) = .error error

variable {window : Window} {event : Event} {button : Button}

/-! ## One event -/

theorem evaluated_cases (window : Window) :
    (∃ message, window.evaluated = window.setError message) ∨
      ∃ result panel, window.evaluated = window.setResult result panel := by
  unfold evaluated
  by_cases empty : trimBlanks window.entry = []
  · exact .inl ⟨_, evaluate_of_empty _ empty⟩
  · cases came : explain window.limits (trimBlanks window.entry) with
    | ok explanation => exact .inr ⟨_, _, evaluate_of_explained _ empty came⟩
    | error error => exact .inl ⟨_, evaluate_of_refused _ empty came⟩

theorem evaluated_of_fails (fails : window.Fails) :
    ∃ message, message ≠ "" ∧ window.evaluated = window.setError message := by
  by_cases empty : trimBlanks window.entry = []
  · exact ⟨_, by decide, evaluate_of_empty _ empty⟩
  · obtain ⟨error, refused⟩ := fails.resolve_left empty
    exact ⟨_, error.report.message_ne_empty, evaluate_of_refused _ empty refused⟩

theorem evaluated_keeps (window : Window) :
    window.evaluated.entry = window.entry ∧ window.evaluated.limits = window.limits := by
  rcases window.evaluated_cases with ⟨message, same⟩ | ⟨result, panel, same⟩
  · rw [same]
    exact ⟨rfl, rfl⟩
  · rw [same]
    exact ⟨rfl, rfl⟩

theorem after_click (window : Window) (button : Button) :
    window.after (.click button) =
      if button.isOnKeypad && !window.laidOut then window.draw
      else (window.draw.hit button { filter := .off }).1 := by
  change (if _ then _ else _ : Window × Journal).1 = _
  split <;> rfl

theorem after_typeDepth (window : Window) (depth : Nat) :
    window.after (.typeDepth depth) =
      if clampDepth depth = window.limits.maxDepth then window.draw
      else window.draw.setDepth (clampDepth depth) := rfl

theorem entry_after (spares : event.editsEntry = false) :
    (window.after event).entry = window.entry := by
  -- an event that says nothing of the entry can still evaluate it
  cases event with
  | click button =>
    rw [after_click]
    split
    · rfl
    · cases button with
      | equals => exact window.draw.evaluated_keeps.1
      | clearResults => rfl
      | _ => cases spares
  | press key =>
    cases key with
    | escape => cases spares
    | enter =>
      rw [after_enter]
      split
      · exact window.draw.evaluated_keeps.1
      · rfl
  | typeDepth depth =>
    rw [after_typeDepth]
    split <;> rfl
  | setDepth depth => rfl
  | setError message => rfl
  | clearResults => rfl
  | frame => rfl
  | _ => cases spares

theorem shown_after (spares : window.changesShown event = false) :
    (window.after event).shown = window.shown := by
  obtain ⟨silent, unevaluated⟩ := Bool.or_eq_false_iff.mp spares
  cases event with
  | click button =>
    rw [after_click]
    split
    · rfl
    · cases button with
      | equals => cases unevaluated
      | clearResults => cases silent
      | clearAll => cases silent
      | _ => rfl
  | press key =>
    cases key with
    | escape => rfl
    | enter =>
      have unfocused : ¬window.focused := Bool.eq_false_iff.mp unevaluated
      rw [after_enter, if_neg unfocused]
      rfl
  | typeDepth depth =>
    rw [after_typeDepth]
    split <;> rfl
  | setEntry text => rfl
  | setDepth depth => rfl
  | clearEntry => rfl
  | deleteLast => rfl
  | frame => rfl
  | _ => cases silent

theorem limits_after (window : Window) (event : Event) :
    (window.after event).limits = window.limits ∨
      event.setsDepth ∧ ∃ depth,
        (window.after event).limits = { window.limits with maxDepth := clampDepth depth } := by
  cases event with
  | click button =>
    rw [after_click]
    split
    · exact .inl rfl
    · cases button with
      | equals => exact .inl window.draw.evaluated_keeps.2
      | clearAll => exact .inr ⟨rfl, Limits.defaultDepth, rfl⟩
      | _ => exact .inl rfl
  | press key =>
    cases key with
    | escape => exact .inl rfl
    | enter =>
      rw [after_enter]
      split
      · exact .inl window.draw.evaluated_keeps.2
      · exact .inl rfl
  | typeDepth depth =>
    rw [after_typeDepth]
    split
    · exact .inl rfl
    · exact .inr ⟨rfl, clampDepth depth, rfl⟩
  | setDepth depth => exact .inr ⟨rfl, depth, rfl⟩
  | clearAll => exact .inr ⟨rfl, Limits.defaultDepth, rfl⟩
  | _ => exact .inl rfl

/-! ## Runs of events -/

def Spares (kind : Window → Event → Bool) : Window → List Event → Prop
  | _, [] => True
  | window, event :: rest => kind window event = false ∧ Spares kind (window.after event) rest

/-- What is changed by events of one kind only stays the same along a run without any. -/
theorem foldl_after_of_spares {α : Type} {field : Window → α} {kind : Window → Event → Bool}
    (step : ∀ {window event}, kind window event = false →
      field (window.after event) = field window)
    {events : List Event} (spares : Spares kind window events) :
    field (events.foldl after window) = field window := by
  induction events generalizing window with
  | nil => rfl
  | cons event rest ih =>
    obtain ⟨first, others⟩ := spares
    rw [List.foldl_cons, ih others, step first]

/-- The depth is one that a window can be set to, and the longest text is the one set at first. -/
structure KeepsLimits (limits : Limits) (window : Window) : Prop where
  least : 1 ≤ window.limits.maxDepth
  most : window.limits.maxDepth ≤ 1024
  maxLength : window.limits.maxLength = limits.maxLength

theorem clampDepth_bounds (depth : Nat) : 1 ≤ clampDepth depth ∧ clampDepth depth ≤ 1024 := by
  unfold clampDepth Limits.depthCeiling
  omega

theorem new_keepsLimits (limits : Limits) : (new limits).KeepsLimits limits :=
  ⟨(clampDepth_bounds _).1, (clampDepth_bounds _).2, rfl⟩

theorem KeepsLimits.after {limits : Limits} (keeps : window.KeepsLimits limits) (event : Event) :
    (window.after event).KeepsLimits limits := by
  obtain ⟨least, most, maxLength⟩ := keeps
  rcases window.limits_after event with same | ⟨_, depth, set⟩
  · exact ⟨by rwa [same], by rwa [same], by rwa [same]⟩
  · obtain ⟨atLeast, atMost⟩ := clampDepth_bounds depth
    exact ⟨by rwa [set], by rwa [set], by rwa [set]⟩

/-! ## Putting in and taking out -/

theorem after_insert {symbol : Char}
    (hit : (Button.insert symbol).isOnKeypad → window.laidOut) :
    window.after (.click (.insert symbol)) = window.draw.insert symbol := by
  rw [after_click, if_neg]
  · rfl
  · simpa using hit

theorem after_deleteLast (laidOut : window.laidOut) :
    window.after (.click .deleteLast) = window.draw.deleteLast := by
  rw [after_click, if_neg]
  · rfl
  · simp [laidOut]

/-- Only the first symbol can be lost, as a click gives the keypad its place. -/
theorem foldl_inserts {symbols : List Char}
    (hit : ∀ first ∈ symbols.head?, (Button.insert first).isOnKeypad → window.laidOut) :
    let typed := (symbols.map fun symbol => Event.click (.insert symbol)).foldl after window
    typed.entry = window.entry ++ symbols ∧ (symbols ≠ [] → typed.laidOut) := by
  induction symbols generalizing window with
  | nil => exact ⟨(List.append_nil _).symm, fun some => absurd rfl some⟩
  | cons first rest ih =>
    rw [List.map_cons, List.foldl_cons, after_insert (hit first rfl)]
    -- the first click has drawn the keypad, so the next one hits
    obtain ⟨entry, laidOut⟩ := @ih (window.draw.insert first) fun _ _ _ => rfl
    refine ⟨?_, fun _ => ?_⟩
    · rw [entry]
      exact List.append_assoc _ [first] rest
    · cases rest with
      | nil => rfl
      | cons next rest => exact laidOut (List.cons_ne_nil _ _)

theorem foldl_deletes (laidOut : window.laidOut) (count : Nat) :
    ((List.replicate count (Event.click .deleteLast)).foldl after window).entry =
      window.entry.take (window.entry.length - count) := by
  induction count generalizing window with
  | zero => exact (List.take_length).symm
  | succ count ih =>
    rw [List.replicate_succ, List.foldl_cons, after_deleteLast laidOut, ih rfl]
    change window.entry.dropLast.take (window.entry.dropLast.length - count) = _
    rw [List.dropLast_eq_take, List.take_take, List.length_take]
    congr 1
    omega

def putAndTakeBack (symbols : List Char) : List Event :=
  symbols.map (fun symbol => .click (.insert symbol)) ++
    List.replicate symbols.length (.click .deleteLast)

theorem entry_of_takenBack {symbols : List Char}
    (hit : ∀ first ∈ symbols.head?, (Button.insert first).isOnKeypad → window.laidOut) :
    ((putAndTakeBack symbols).foldl after window).entry = window.entry := by
  cases symbols with
  | nil => rfl
  | cons first rest =>
    obtain ⟨typed, laidOut⟩ := foldl_inserts hit
    rw [putAndTakeBack, List.foldl_append, foldl_deletes (laidOut (List.cons_ne_nil _ _)), typed,
      List.length_append, Nat.add_sub_cancel]
    exact List.take_left

/-! ## Whole runs -/

/-- Whatever has happened to a window, its depth is one that it can be set to, and its longest text
the one set at first. From then on its entry, what it shows and its limits each stay the same until
an event of the kind that changes them. A failed evaluation leaves the entry, the result and the
limits. And DEL takes back what the keypad has put in, unless the first of its buttons is not hit,
because no frame has been drawn yet. -/
theorem run_effects (limits : Limits) (events : List Event) (journal : Journal) :
    let window := ((new limits).run events journal).1
    window.KeepsLimits limits ∧
    (∀ later, Spares (fun _ => Event.editsEntry) window later →
      (window.run later journal).1.entry = window.entry) ∧
    (∀ later, Spares changesShown window later →
      (window.run later journal).1.shown = window.shown) ∧
    (∀ later, Spares (fun _ => Event.setsDepth) window later →
      (window.run later journal).1.limits = window.limits) ∧
    (∀ event, window.evaluatesOn event → window.Fails →
      let next := (window.handle event journal).1
      next.error ≠ "" ∧ next.entry = window.entry ∧ next.result = window.result ∧
        next.limits = window.limits) ∧
    ∀ symbols : List Char,
      (∀ first ∈ symbols.head?, (Button.insert first).isOnKeypad → window.laidOut) →
      (window.run (putAndTakeBack symbols) journal).1.entry = window.entry := by
  intro window
  refine ⟨?_, fun later spares => ?_, fun later spares => ?_, fun later spares => ?_,
    fun event evaluates fails => ?_, fun symbols hit => ?_⟩
  · change ((new limits).run events journal).1.KeepsLimits limits
    rw [run_window]
    exact List.foldlRecOn events after (new_keepsLimits limits) fun _ keeps event _ =>
      keeps.after event
  · rw [run_window]
    exact foldl_after_of_spares entry_after spares
  · rw [run_window]
    exact foldl_after_of_spares shown_after spares
  · rw [run_window]
    refine foldl_after_of_spares (fun {window event} unset => ?_) spares
    rcases window.limits_after event with same | ⟨sets, _⟩
    · exact same
    · rw [unset] at sets
      cases sets
  · obtain ⟨message, wrong, failed⟩ := @evaluated_of_fails window.draw fails
    rw [handle_of_evaluates evaluates, evaluate_window, failed]
    exact ⟨wrong, rfl, rfl, rfl⟩
  · rw [run_window]
    exact entry_of_takenBack hit

def quotientEvents : List Event := [.setEntry "1/(0)".toList, .frame]

theorem run_effects_quotient :
    let window := ((new ⟨0, 50⟩).run quotientEvents { filter := .off }).1
    1 ≤ window.limits.maxDepth ∧ window.limits.maxDepth ≤ 1024 ∧ window.limits.maxLength = 50 ∧
      (window.run [.setError "?", .typeDepth 7, .click .equals] { filter := .off }).1.entry =
        "1/(0)".toList ∧
      (window.run [.press .escape, .typeDepth 7, .click (.insert '8')] { filter := .off }).1.shown =
        ([], "", {}) ∧
      (window.run [.click .equals, .clearResults] { filter := .off }).1.limits = ⟨1, 50⟩ ∧
      (window.handle (.click .equals) { filter := .off }).1.error ≠ "" ∧
      (window.run (putAndTakeBack "8(".toList) { filter := .off }).1.entry = "1/(0)".toList := by
  intro window
  obtain ⟨limits, entry, shown, depth, failed, takenBack⟩ :=
    run_effects ⟨0, 50⟩ quotientEvents { filter := .off }
  have fails : window.Fails := .inr ⟨.fault (.divisionByZero ⟨false, 1, 0⟩ ⟨false, 0, 0⟩), rfl⟩
  exact ⟨limits.least, limits.most, limits.maxLength,
    entry _ ⟨rfl, rfl, rfl, trivial⟩,
    shown _ ⟨rfl, rfl, rfl, trivial⟩,
    depth _ ⟨rfl, rfl, trivial⟩,
    (failed (.click .equals) rfl fails).1,
    takenBack _ fun _ _ _ => rfl⟩

/-- The first click on a digit is lost in a window that has never been drawn, and DEL then takes out
what stood there before. -/
theorem not_forall_takenBack :
    ¬∀ (limits : Limits) (events : List Event) (journal : Journal) (symbols : List Char),
      let window := ((new limits).run events journal).1
      (window.run (putAndTakeBack symbols) journal).1.entry = window.entry := by
  intro claim
  have same : ([] : List Char) = ['5'] :=
    claim {} [.setEntry ['5']] { filter := .off } ['1']
  cases same

end Window

end ExactCalc
