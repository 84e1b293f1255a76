import Mathlib.Data.List.Forall2

/-! Computations that end with an answer or a refusal: their composition, and what a run of steps
keeps. -/

set_option autoImplicit false

namespace ExactCalc

theorem Except.bind_eq_ok_iff {ε α β : Type} {first : Except ε α} {next : α → Except ε β}
    {result : β} : first >>= next = .ok result ↔ ∃ a, first = .ok a ∧ next a = .ok result := by
  cases first with
  | error cause => simp [bind, Except.bind]
  | ok a => simp [bind, Except.bind]

theorem Except.map_eq_ok_iff {ε α β : Type} {f : α → β} {item : Except ε α} {result : β} :
    f <$> item = .ok result ↔ ∃ a, item = .ok a ∧ f a = result := by
  cases item with
  | error cause => simp [Functor.map, Except.map]
  | ok a => simp [Functor.map, Except.map]

theorem Except.map_eq_error_iff {ε α β : Type} {f : α → β} {item : Except ε α} {cause : ε} :
    f <$> item = .error cause ↔ item = .error cause := by
  cases item with
  | error other => simp [Functor.map, Except.map]
  | ok a => simp [Functor.map, Except.map]

theorem Except.mapM_id_eq_ok {ε α : Type} {items : List (Except ε α)} {results : List α}
    (run : items.mapM id = .ok results) : items = results.map .ok := by
  induction items generalizing results with
  | nil =>
    obtain rfl : [] = results := by simpa [pure, Except.pure] using run
    rfl
  | cons item rest ih =>
    rw [List.mapM_cons] at run
    obtain ⟨result, first, later⟩ := Except.bind_eq_ok_iff.mp run
    obtain ⟨others, tail, same⟩ := Except.bind_eq_ok_iff.mp later
    cases same
    rw [List.map_cons, ← ih tail, ← show item = .ok result from first]

theorem Except.mapM_id_map_ok {ε α : Type} (results : List α) :
    (results.map Except.ok : List (Except ε α)).mapM id = .ok results := by
  induction results with
  | nil => rfl
  | cons result rest ih =>
    rw [List.map_cons, List.mapM_cons, ih]
    rfl

theorem Except.length_of_mapM_id {ε α : Type} {items : List (Except ε α)} {results : List α}
    (run : items.mapM id = .ok results) : results.length = items.length := by
  rw [Except.mapM_id_eq_ok run, List.length_map]

theorem Except.mapM_id_eq_error {ε α : Type} {items : List (Except ε α)} {cause : ε}
    (run : items.mapM id = .error cause) : .error cause ∈ items := by
  induction items with
  | nil => simp [pure, Except.pure] at run
  | cons item rest ih =>
    rw [List.mapM_cons] at run
    cases item with
    | error other =>
      cases run
      exact List.mem_cons_self
    | ok result =>
      cases tail : rest.mapM id with
      | error other =>
        rw [tail] at run
        cases run
        exact List.mem_cons_of_mem _ (ih tail)
      | ok others =>
        rw [tail] at run
        cases run

/-- Two computations that end alike: with answers that are related, or with refusals that are. -/
inductive Except.Corresponds {ε δ α β : Type} (causes : ε → δ → Prop) (answers : α → β → Prop) :
    Except ε α → Except δ β → Prop where
  | ok {a : α} {b : β} : answers a b → Corresponds causes answers (.ok a) (.ok b)
  | error {cause : ε} {other : δ} :
      causes cause other → Corresponds causes answers (.error cause) (.error other)

theorem Except.corresponds_eq_iff {ε α : Type} {first second : Except ε α} :
    Except.Corresponds Eq Eq first second ↔ first = second := by
  constructor
  · rintro (same | same)
    · rw [same]
    · rw [same]
  · rintro rfl
    cases first with
    | error cause => exact .error rfl
    | ok a => exact .ok rfl

theorem Except.Corresponds.bind {ε δ α β α' β' : Type} {causes : ε → δ → Prop}
    {answers : α → β → Prop} {results : α' → β' → Prop} {first : Except ε α}
    {other : Except δ β} {next : α → Except ε α'} {otherNext : β → Except δ β'}
    (alike : Except.Corresponds causes answers first other)
    (each : ∀ a b, answers a b → Except.Corresponds causes results (next a) (otherNext b)) :
    Except.Corresponds causes results (first >>= next) (other >>= otherNext) := by
  cases alike with
  | ok same => exact each _ _ same
  | error same => exact .error same

theorem Except.foldlM_corresponds {ε δ α α' β β' : Type} {causes : ε → δ → Prop}
    {same : α → α' → Prop} {agree : β → β' → Prop} {step : β → α → Except ε β}
    {otherStep : β' → α' → Except δ β'}
    (each : ∀ state other item otherItem, agree state other → same item otherItem →
      Except.Corresponds causes agree (step state item) (otherStep other otherItem))
    {items : List α} {others : List α'} (alike : List.Forall₂ same items others) {state : β}
    {other : β'} (start : agree state other) :
    Except.Corresponds causes agree (items.foldlM step state) (others.foldlM otherStep other) := by
  induction alike generalizing state other with
  | nil => exact .ok start
  | @cons item otherItem items others first _ ih =>
    have stepped := each state other item otherItem start first
    rw [List.foldlM_cons, List.foldlM_cons]
    cases next : step state item <;> cases otherNext : otherStep other otherItem <;>
      rw [next, otherNext] at stepped <;> cases stepped
    case error.error.error refused => exact .error refused
    case ok.ok.ok agreed => exact ih agreed

/-- What a step keeps holds after a run, of all that the run has read. -/
theorem Except.foldlM_invariant {ε α β : Type} {step : β → α → Except ε β}
    (holds : List α → β → Prop)
    (keeps : ∀ read state item next, holds read state → step state item = .ok next →
      holds (read ++ [item]) next)
    (read items : List α) (state final : β) (start : holds read state)
    (run : items.foldlM step state = .ok final) : holds (read ++ items) final := by
  induction items generalizing read state with
  | nil =>
    obtain rfl : state = final := by simpa [pure, Except.pure] using run
    simpa using start
  | cons item rest ih =>
    rw [List.foldlM_cons] at run
    obtain ⟨next, stepped, run⟩ := Except.bind_eq_ok_iff.mp run
    have after := ih (read ++ [item]) next (keeps read state item next start stepped) run
    simpa using after

/-- A run of steps is refused where the first of them is. -/
theorem Except.foldlM_eq_error_iff {ε α β : Type} {step : β → α → Except ε β} {items : List α}
    {state : β} {cause : ε} :
    items.foldlM step state = .error cause ↔
      ∃ before item after between, items = before ++ item :: after ∧
        before.foldlM step state = .ok between ∧ step between item = .error cause := by
  constructor
  · intro refused
    induction items generalizing state with
    | nil => cases refused
    | cons first rest ih =>
      rw [List.foldlM_cons] at refused
      cases stepped : step state first with
      | error other =>
        rw [stepped] at refused
        cases refused
        exact ⟨[], first, rest, state, rfl, rfl, stepped⟩
      | ok next =>
        rw [stepped] at refused
        obtain ⟨before, item, after, between, rfl, ran, failed⟩ := ih refused
        refine ⟨first :: before, item, after, between, rfl, ?_, failed⟩
        rw [List.foldlM_cons, stepped]
        exact ran
  · rintro ⟨before, item, after, between, rfl, ran, failed⟩
    rw [List.foldlM_append, ran]
    change (item :: after).foldlM step between = _
    rw [List.foldlM_cons, failed]
    rfl

end ExactCalc
