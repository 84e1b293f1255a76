import ExactCalc.Chain.Nesting
import ExactCalc.Proofs.Chain.Phrase
import ExactCalc.Proofs.Refusal

/-! The check of parentheses accepts the balanced sequences of symbols that nest within the
limit, and no others. -/

set_option autoImplicit false

namespace ExactCalc

namespace Nesting

variable {maxDepth : Nat}

/-- A step goes through if the parentheses then open are not too many and not too few. -/
theorem step_ok_iff (nesting : Nesting) (token : Token) (room : nesting.depth ≤ maxDepth) :
    (∃ next, step maxDepth nesting token = .ok next) ↔
      0 ≤ nesting.depth + token.symbol.lift ∧ nesting.depth + token.symbol.lift ≤ maxDepth := by
  unfold step
  cases token.symbol with
  | number lexeme => simpa [Symbol.lift] using room
  | operator op => simpa [Symbol.lift] using room
  | opening =>
    simp only [Symbol.lift]
    split
    · simp only [reduceCtorEq, exists_false, false_iff]
      omega
    · split <;> simp only [Except.ok.injEq, exists_eq', true_iff] <;> omega
  | closing =>
    simp only [Symbol.lift]
    split
    · simp only [reduceCtorEq, exists_false, false_iff]
      omega
    · simp only [Except.ok.injEq, exists_eq', true_iff]
      omega

theorem step_depth (nesting next : Nesting) (token : Token)
    (stepped : step maxDepth nesting token = .ok next) :
    (next.depth : Int) = nesting.depth + token.symbol.lift := by
  unfold step at stepped
  cases same : token.symbol with
  | number lexeme => simp_all [Symbol.lift]
  | operator op => simp_all [Symbol.lift]
  | opening =>
    rw [same] at stepped
    simp only [Symbol.lift] at stepped ⊢
    split at stepped
    · cases stepped
    · split at stepped <;> cases stepped <;> simp_all
  | closing =>
    rw [same] at stepped
    simp only [Symbol.lift] at stepped ⊢
    split at stepped
    · cases stepped
    · cases stepped
      simp only
      omega

theorem run_depth (tokens : List Token) (nesting final : Nesting)
    (run : tokens.foldlM (step maxDepth) nesting = .ok final) :
    (final.depth : Int) = nesting.depth + Symbol.rise (tokens.map (·.symbol)) := by
  refine Except.foldlM_invariant
    (fun read state => (state.depth : Int) =
      nesting.depth + Symbol.rise (read.map (·.symbol))) ?_ [] tokens nesting final (by simp) run
  intro read state token next depth stepped
  rw [step_depth state next token stepped, depth]
  simp [Int.add_assoc]

theorem run_ok_iff (tokens : List Token) (nesting : Nesting) (room : nesting.depth ≤ maxDepth) :
    (∃ final, tokens.foldlM (step maxDepth) nesting = .ok final) ↔
      ∀ before, before <+: tokens.map (·.symbol) →
        0 ≤ nesting.depth + Symbol.rise before ∧
          nesting.depth + Symbol.rise before ≤ maxDepth := by
  -- a step moves the depth by the lift of its token, and all later places with it
  induction tokens generalizing nesting with
  | nil => simpa [pure, Except.pure] using room
  | cons token rest ih =>
    rw [List.map_cons, Symbol.forall_prefix_cons _ _
      (fun n => 0 ≤ (nesting.depth : Int) + n ∧ nesting.depth + n ≤ maxDepth)]
    simp only [List.foldlM_cons, Except.bind_eq_ok_iff]
    constructor
    · rintro ⟨final, next, stepped, run⟩
      have depth := step_depth nesting next token stepped
      have bounds := (step_ok_iff nesting token room).mp ⟨next, stepped⟩
      have after := (ih next (by omega)).mp ⟨final, run⟩
      refine ⟨by omega, fun before inside => ?_⟩
      have bound := after before inside
      omega
    · rintro ⟨_, after⟩
      have bounds := after [] List.nil_prefix
      rw [Symbol.rise_nil, Int.add_zero] at bounds
      obtain ⟨next, stepped⟩ := (step_ok_iff nesting token room).mpr bounds
      have depth := step_depth nesting next token stepped
      obtain ⟨final, run⟩ := (ih next (by omega)).mpr fun before inside => by
        have bound := after before inside
        omega
      exact ⟨final, next, stepped, run⟩

theorem check_ok_iff (tokens : List Token) :
    check maxDepth tokens = .ok () ↔ Symbol.Balanced (tokens.map (·.symbol)) ∧
      Symbol.NestsWithin maxDepth (tokens.map (·.symbol)) := by
  have run := run_ok_iff tokens {} (Nat.zero_le maxDepth)
  simp only [Int.zero_add, Int.natCast_zero] at run
  unfold check
  rw [Except.bind_eq_ok_iff]
  constructor
  · rintro ⟨final, ran, last⟩
    have bounds := run.mp ⟨final, ran⟩
    have depth := run_depth tokens {} final ran
    split at last
    · rename_i closed
      refine ⟨⟨?_, fun before inside => (bounds before inside).1⟩,
        fun before inside => (bounds before inside).2⟩
      simpa [closed] using depth.symm
    · cases last
  · rintro ⟨⟨level, rises⟩, within⟩
    obtain ⟨final, ran⟩ := run.mpr fun before inside => ⟨rises before inside, within before inside⟩
    have depth := run_depth tokens {} final ran
    refine ⟨final, ran, ?_⟩
    have closed : final.depth = 0 := by
      rw [level] at depth
      simpa using depth
    rw [if_pos closed]
    rfl

end Nesting

end ExactCalc
