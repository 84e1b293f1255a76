import ExactCalc.Proofs.Reading

/-! Reading and evaluating a text under looser limits.

The length of a text is asked once, before anything else, and the depth at each opening parenthesis.
At both places a looser limit lets through what a tighter one did and changes nothing else, so that
the tighter reading goes the same way up to the place where it is refused for a limit. Where it is
not, both readings are the same, and the evaluation that follows asks for no limit.
-/

set_option autoImplicit false

namespace ExactCalc

/-- The first computation is refused for a limit, or the second is the same. -/
def LoosenedTo {α : Type} (first second : Except EvalError α) : Prop :=
  (∃ error, first = .error error ∧ error.report.isResource) ∨ first = second

namespace LoosenedTo

variable {α β : Type}

theorem same (result : Except EvalError α) : LoosenedTo result result := Or.inr rfl

theorem refused {error : EvalError} (limited : error.report.isResource)
    (other : Except EvalError α) : LoosenedTo (.error error) other :=
  Or.inl ⟨error, rfl, limited⟩

theorem bind {first second : Except EvalError α} {next loose : α → Except EvalError β}
    (start : LoosenedTo first second) (each : ∀ a, LoosenedTo (next a) (loose a)) :
    LoosenedTo (first >>= next) (second >>= loose) := by
  rcases start with ⟨error, rfl, limited⟩ | rfl
  · exact .refused limited _
  · cases first with
    | error error => exact .same _
    | ok a => exact each a

theorem foldlM {step loose : β → α → Except EvalError β}
    (each : ∀ state item, LoosenedTo (step state item) (loose state item)) (items : List α)
    (state : β) : LoosenedTo (items.foldlM step state) (items.foldlM loose state) := by
  induction items generalizing state with
  | nil => exact .same _
  | cons item rest ih =>
    rw [List.foldlM_cons, List.foldlM_cons]
    exact (each state item).bind ih

end LoosenedTo

/-! ## Reading -/

theorem Nesting.step_loosened {tight loose : Nat} (looser : tight ≤ loose) (nesting : Nesting)
    (token : Token) : LoosenedTo (step tight nesting token) (step loose nesting token) := by
  unfold step
  cases token.symbol with
  | opening =>
    by_cases full : tight ≤ nesting.depth
    · simp only [if_pos full]
      exact .refused rfl _
    · -- there is room under the tighter limit, so there is under the looser one
      have room : ¬loose ≤ nesting.depth := fun full' => full (looser.trans full')
      simp only [if_neg full, if_neg room]
      exact .same _
  | number lexeme => exact .same _
  | operator op => exact .same _
  | closing => exact .same _

theorem Nesting.check_loosened {tight loose : Nat} (looser : tight ≤ loose)
    (tokens : List Token) : LoosenedTo (check tight tokens) (check loose tokens) :=
  (LoosenedTo.foldlM (step_loosened looser) tokens {}).bind fun _ => .same _

theorem Chain.parse_loosened {tight loose : Nat} (looser : tight ≤ loose) (endPosition : Nat)
    (tokens : List Token) :
    LoosenedTo (parse tight endPosition tokens) (parse loose endPosition tokens) :=
  (Nesting.check_loosened looser tokens).bind fun _ => .same _

theorem readExpression_loosened {tight loose : Limits} (length : tight.maxLength ≤ loose.maxLength)
    (depth : tight.effectiveDepth ≤ loose.effectiveDepth) (text : List Char) :
    LoosenedTo (readExpression tight text) (readExpression loose text) := by
  unfold readExpression
  by_cases long : tight.maxLength < byteLength text
  · simp only [if_pos long]
    exact .refused rfl _
  · have short : ¬loose.maxLength < byteLength text := fun beyond => long (length.trans_lt beyond)
    simp only [if_neg long, if_neg short]
    exact LoosenedTo.bind (.same _) fun tokens =>
      (Chain.parse_loosened depth _ tokens).bind fun _ => .same _

/-! ## Evaluating -/

theorem explain_eq_of_read {limits others : Limits} {text : List Char}
    (same : readExpression limits text = readExpression others text) :
    explain limits text = explain others text := by
  rw [explain, explainIn, same]
  rfl

theorem explain_loosened {tight loose : Limits} (length : tight.maxLength ≤ loose.maxLength)
    (depth : tight.effectiveDepth ≤ loose.effectiveDepth) (text : List Char) :
    LoosenedTo (explain tight text) (explain loose text) := by
  rcases readExpression_loosened length depth text with ⟨error, refused, limited⟩ | same
  · rw [explain_of_refused refused]
    exact .refused limited _
  · rw [explain_eq_of_read same]
    exact .same _

theorem explain_ok_loosened {tight loose : Limits} (length : tight.maxLength ≤ loose.maxLength)
    (depth : tight.effectiveDepth ≤ loose.effectiveDepth) {text : List Char} {whole : Explanation}
    (came : explain tight text = .ok whole) : explain loose text = .ok whole := by
  rcases explain_loosened length depth text with ⟨error, refused, _⟩ | same
  · rw [came] at refused
    cases refused
  · rw [← same, came]

/-- Limits only refuse: where none is passed, looser ones lead to the same value with the same
account, or to the same refusal at the same place. -/
theorem explain_of_looser {tight loose : Limits} {text : List Char}
    (length : tight.maxLength ≤ loose.maxLength) (depth : tight.maxDepth ≤ loose.maxDepth)
    (within : ∀ error, explain tight text = .error error → error.report.isResource = false) :
    explain loose text = explain tight text := by
  have effective : tight.effectiveDepth ≤ loose.effectiveDepth := by
    unfold Limits.effectiveDepth
    omega
  rcases explain_loosened length effective text with ⟨error, refused, limited⟩ | same
  · rw [within error refused] at limited
    cases limited
  · exact same.symm

/-- In `(1))((`, the parenthesis that closes nothing is refused under any limits, though behind it
two more are open than the tighter ones allow. -/
theorem explain_of_looser_orphan :
    explain ⟨1, 6⟩ "(1))((".toList = .error (.unbalanced 3) ∧
      explain ⟨5000, 100000⟩ "(1))((".toList = .error (.unbalanced 3) := by
  have refused : explain ⟨1, 6⟩ "(1))((".toList = .error (.unbalanced 3) := rfl
  refine ⟨refused, ?_⟩
  rw [← refused]
  refine explain_of_looser (by decide) (by decide) fun error same => ?_
  rw [refused] at same
  cases same
  rfl

end ExactCalc
