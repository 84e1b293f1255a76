import ExactCalc.Proofs.Chain.ViablePrefix
import ExactCalc.Proofs.Reading
import Mathlib.Order.Bounds.Basic

/-! Which parenthesis is refused, and how deep an accepted chain is.

In a scan from the left, the first opening parenthesis beyond the limit and the first closing one
without a partner are refused where they are met; of those left open at the end, the leftmost. The
check keeps the depth and the place of the outermost open parenthesis only. That place is the right
one because all before it is balanced, and because nothing after it closes it.
-/

set_option autoImplicit false

namespace ExactCalc

theorem exists_first_failure {α : Type} (holds : List α → Prop) (start : holds [])
    {items : List α} (fails : ¬holds items) :
    ∃ before item after, items = before ++ item :: after ∧ holds before ∧
      ¬holds (before ++ [item]) := by
  induction items using List.reverseRecOn with
  | nil => exact absurd start fails
  | append_singleton items last ih =>
    by_cases still : holds items
    · exact ⟨items, last, [], rfl, still, fails⟩
    · obtain ⟨before, item, after, rfl, holding, failing⟩ := ih still
      exact ⟨before, item, after ++ [last], by simp, holding, failing⟩

namespace Symbol

def NoOrphan (symbols : List Symbol) : Prop :=
  ∀ before after, symbols = before ++ .closing :: after → rise before ≠ 0

/-- The parenthesis opened right before the symbols is closed among them. -/
def ClosedWithin (symbols : List Symbol) : Prop :=
  ∃ inner after, symbols = inner ++ .closing :: after ∧ Balanced inner

theorem forall_prefix_concat (symbols : List Symbol) (last : Symbol) (bound : Int → Prop) :
    (∀ before, before <+: symbols ++ [last] → bound (rise before)) ↔
      (∀ before, before <+: symbols → bound (rise before)) ∧ bound (rise symbols + last.lift) := by
  constructor
  · intro every
    refine ⟨fun before inside => every before (inside.trans (List.prefix_append _ _)), ?_⟩
    simpa using every _ List.prefix_rfl
  · rintro ⟨early, whole⟩ before inside
    rcases List.prefix_concat_iff.mp inside with rfl | shorter
    · simpa using whole
    · exact early before shorter

theorem closing_of_lift_neg {symbol : Symbol} (falls : symbol.lift < 0) : symbol = .closing := by
  cases symbol with
  | closing => rfl
  | _ => simp [lift] at falls

theorem opening_of_lift_pos {symbol : Symbol} (rises : 0 < symbol.lift) : symbol = .opening := by
  cases symbol with
  | opening => rfl
  | _ => simp [lift] at rises

theorem lift_bounds (symbol : Symbol) : -1 ≤ symbol.lift ∧ symbol.lift ≤ 1 := by
  cases symbol <;> simp [lift]

theorem exists_orphan {symbols : List Symbol}
    (falls : ¬∀ before, before <+: symbols → 0 ≤ rise before) :
    ∃ before after, symbols = before ++ .closing :: after ∧ Balanced before := by
  obtain ⟨before, symbol, after, rfl, rises, below⟩ :=
    exists_first_failure (fun part => ∀ before, before <+: part → 0 ≤ rise before)
      (by simp) falls
  rw [forall_prefix_concat _ _ (0 ≤ ·)] at below
  have whole := rises before List.prefix_rfl
  have last : rise before + symbol.lift < 0 := Int.not_le.mp fun up => below ⟨rises, up⟩
  have least := symbol.lift_bounds
  have lowers : symbol.lift < 0 := by omega
  obtain rfl := closing_of_lift_neg lowers
  exact ⟨before, after, rfl, by omega, rises⟩

theorem noOrphan_iff (symbols : List Symbol) :
    NoOrphan symbols ↔ ∀ before, before <+: symbols → 0 ≤ rise before := by
  constructor
  · intro opened
    by_contra falls
    obtain ⟨before, after, same, balanced⟩ := exists_orphan falls
    exact opened before after same balanced.1
  · rintro rises before after rfl level
    have below := rises (before ++ [.closing])
      ((List.prefix_append_right_inj before).mpr (by simp))
    simp [level, lift] at below

theorem NoOrphan.beginning {symbols before : List Symbol} (opened : NoOrphan symbols)
    (inside : before <+: symbols) : NoOrphan before := by
  rw [noOrphan_iff] at opened ⊢
  exact fun part shorter => opened part (shorter.trans inside)

theorem NoOrphan.rise_nonneg {symbols : List Symbol} (opened : NoOrphan symbols) :
    0 ≤ rise symbols :=
  (noOrphan_iff symbols).mp opened symbols List.prefix_rfl

theorem NoOrphan.concat {symbols : List Symbol} (opened : NoOrphan symbols) (last : Symbol)
    (rises : 0 ≤ rise symbols + last.lift) : NoOrphan (symbols ++ [last]) := by
  rw [noOrphan_iff] at opened ⊢
  exact (forall_prefix_concat symbols last (0 ≤ ·)).mpr ⟨opened, rises⟩

theorem NoOrphan.balanced {symbols : List Symbol} (opened : NoOrphan symbols)
    (level : rise symbols = 0) : Balanced symbols :=
  ⟨level, (noOrphan_iff symbols).mp opened⟩

theorem Balanced.noOrphan {symbols : List Symbol} (balanced : Balanced symbols) :
    NoOrphan symbols :=
  (noOrphan_iff symbols).mpr balanced.2

theorem noOrphan_nil : NoOrphan [] := by
  simp [NoOrphan]

theorem NoOrphan.not_closedWithin {symbols : List Symbol} (opened : NoOrphan symbols) :
    ¬ClosedWithin symbols := by
  rintro ⟨inner, after, rfl, balanced⟩
  exact opened inner after rfl balanced.1

theorem ClosedWithin.append {symbols : List Symbol} (closed : ClosedWithin symbols)
    (more : List Symbol) : ClosedWithin (symbols ++ more) := by
  obtain ⟨inner, after, rfl, balanced⟩ := closed
  exact ⟨inner, after ++ more, by simp, balanced⟩

theorem Balanced.closedWithin {before after : List Symbol}
    (balanced : Balanced (before ++ .opening :: after)) : ClosedWithin after := by
  have early := balanced.2 before (List.prefix_append _ _)
  have whole := balanced.1
  rw [rise_append, rise_cons, lift] at whole
  exact exists_orphan fun rises => absurd (rises after List.prefix_rfl) (by omega)

theorem Balanced.eq_nil_of_closing {first more after rest : List Symbol} (balanced : Balanced first)
    (opened : NoOrphan (first ++ more)) (same : .closing :: after = more ++ .closing :: rest) :
    more = [] := by
  cases more with
  | nil => rfl
  | cons symbol more =>
    obtain ⟨rfl, _⟩ := List.cons.inj same
    exact absurd balanced.1 (opened first more rfl)

theorem Balanced.append_closing_inj {first second after rest : List Symbol}
    (left : Balanced first) (right : Balanced second)
    (same : first ++ .closing :: after = second ++ .closing :: rest) :
    first = second ∧ after = rest := by
  rcases List.append_eq_append_iff.mp same with ⟨more, rfl, tail⟩ | ⟨more, rfl, tail⟩
  · obtain rfl := left.eq_nil_of_closing right.noOrphan tail
    exact ⟨(List.append_nil first).symm, (List.cons.inj tail).2⟩
  · obtain rfl := right.eq_nil_of_closing left.noOrphan tail
    exact ⟨List.append_nil second, (List.cons.inj tail).2.symm⟩

end Symbol

/-! ## The parentheses of a list of tokens -/

namespace Token

/-- An opening parenthesis is met where as many are open as may be, and none was closed before that
was not open. -/
def PassesDepth (maxDepth : Nat) (tokens : List Token) : Prop :=
  ∃ before position after, tokens = before ++ ⟨.opening, position⟩ :: after ∧
    Symbol.NoOrphan (before.map (·.symbol)) ∧ Symbol.rise (before.map (·.symbol)) = maxDepth

def FirstOrphan (tokens : List Token) (position : Nat) : Prop :=
  ∃ before after, tokens = before ++ ⟨.closing, position⟩ :: after ∧
    Symbol.NoOrphan (before.map (·.symbol)) ∧ Symbol.rise (before.map (·.symbol)) = 0

/-- The leftmost opening parenthesis that is not closed stands at the position. -/
def FirstUnclosed (tokens : List Token) (position : Nat) : Prop :=
  ∃ before after, tokens = before ++ ⟨.opening, position⟩ :: after ∧
    ¬Symbol.ClosedWithin (after.map (·.symbol)) ∧
    ∀ earlier place later, before = earlier ++ ⟨.opening, place⟩ :: later →
      Symbol.ClosedWithin ((later ++ ⟨.opening, position⟩ :: after).map (·.symbol))

theorem noOrphan_iff_not_firstOrphan (tokens : List Token) :
    Symbol.NoOrphan (tokens.map (·.symbol)) ↔ ¬∃ position, FirstOrphan tokens position := by
  constructor
  · rintro opened ⟨position, before, after, rfl, _, level⟩
    exact opened (before.map (·.symbol)) (after.map (·.symbol)) (by simp) level
  · intro none
    rw [Symbol.noOrphan_iff]
    by_contra falls
    obtain ⟨before, after, same, balanced⟩ := Symbol.exists_orphan falls
    obtain ⟨left, right, rfl, rfl, rest⟩ := List.map_eq_append_iff.mp same
    obtain ⟨⟨symbol, position⟩, tail, rfl, rfl, _⟩ := List.map_eq_cons_iff.mp rest
    exact none ⟨position, left, tail, rfl, balanced.noOrphan, balanced.1⟩

theorem nestsWithin_of_not_passesDepth {maxDepth : Nat} {before after : List Token}
    (within : ¬PassesDepth maxDepth (before ++ after))
    (opened : Symbol.NoOrphan (before.map (·.symbol))) :
    Symbol.NestsWithin maxDepth (before.map (·.symbol)) := by
  by_contra beyond
  obtain ⟨early, token, late, rfl, nests, passes⟩ :=
    exists_first_failure (fun part : List Token =>
      Symbol.NestsWithin maxDepth (part.map (·.symbol))) (by simp [Symbol.NestsWithin]) beyond
  obtain ⟨symbol, position⟩ := token
  rw [List.map_append] at opened passes
  have whole := nests _ List.prefix_rfl
  have last : ¬Symbol.rise (early.map (·.symbol)) + symbol.lift ≤ maxDepth := fun under =>
    passes ((Symbol.forall_prefix_concat _ _ (· ≤ (maxDepth : Int))).mpr ⟨nests, under⟩)
  have most := symbol.lift_bounds
  have lifts : 0 < symbol.lift := by omega
  obtain rfl := Symbol.opening_of_lift_pos lifts
  have full : Symbol.lift .opening = 1 := rfl
  exact within ⟨early, position, late ++ after, by simp, opened.beginning (List.prefix_append _ _),
    by omega⟩

end Token

/-! ## The check -/

namespace Nesting

variable {maxDepth : Nat}

theorem step_eq_error {nesting : Nesting} {token : Token} {cause : EvalError}
    (refused : step maxDepth nesting token = .error cause) :
    token.symbol = .opening ∧ maxDepth ≤ nesting.depth ∧ cause = .tooDeep maxDepth ∨
      token.symbol = .closing ∧ nesting.depth = 0 ∧ cause = .unbalanced token.position := by
  unfold step at refused
  split at refused
  · rename_i symbol
    split at refused
    · rename_i full
      exact .inl ⟨symbol, full, (Except.error.inj refused).symm⟩
    · split at refused <;> cases refused
  · rename_i symbol
    split at refused
    · rename_i none
      exact .inr ⟨symbol, none, (Except.error.inj refused).symm⟩
    · cases refused
  · cases refused

theorem run_eq_error {tokens : List Token} {cause : EvalError}
    (refused : tokens.foldlM (step maxDepth) {} = .error cause) :
    (cause = .tooDeep maxDepth ∧ Token.PassesDepth maxDepth tokens) ∨
      ∃ position, cause = .unbalanced position ∧ Token.FirstOrphan tokens position := by
  obtain ⟨before, ⟨symbol, position⟩, after, nesting, rfl, ran, failed⟩ :=
    Except.foldlM_eq_error_iff.mp refused
  have bounds := (run_ok_iff before {} (Nat.zero_le maxDepth)).mp ⟨nesting, ran⟩
  have depth := run_depth before {} nesting ran
  simp only [Int.natCast_zero, Int.zero_add] at bounds depth
  have opened := (Symbol.noOrphan_iff _).mpr fun part inside => (bounds part inside).1
  have within := (bounds _ List.prefix_rfl).2
  rcases step_eq_error failed with ⟨rfl, full, rfl⟩ | ⟨rfl, none, rfl⟩
  · exact .inl ⟨rfl, before, position, after, rfl, opened, by omega⟩
  · exact .inr ⟨position, rfl, before, after, rfl, opened, by omega⟩

theorem run_of_passesDepth {tokens : List Token} (passes : Token.PassesDepth maxDepth tokens) :
    tokens.foldlM (step maxDepth) {} = .error (.tooDeep maxDepth) := by
  obtain ⟨before, position, after, rfl, opened, full⟩ := passes
  let opening : Token := ⟨.opening, position⟩
  have beyond : (before ++ [opening]).foldlM (step maxDepth) {} = .error (.tooDeep maxDepth) := by
    cases run : (before ++ [opening]).foldlM (step maxDepth) {} with
    | ok final =>
      have bounds := (run_ok_iff _ {} (Nat.zero_le maxDepth)).mp ⟨final, run⟩ _ List.prefix_rfl
      simp only [opening, List.map_append, Symbol.rise_append, List.map_cons, List.map_nil,
        Symbol.rise_cons, Symbol.rise_nil, Symbol.lift, full] at bounds
      omega
    | error cause =>
      rcases run_eq_error run with ⟨rfl, _⟩ | ⟨_, _, orphan⟩
      · rfl
      · -- neither before this parenthesis nor at it does one close that is not open
        have also := opened.concat .opening (by simp [Symbol.lift, full]; omega)
        have none := (Token.noOrphan_iff_not_firstOrphan (before ++ [opening])).mp
          (by simpa [opening] using also)
        exact absurd ⟨_, orphan⟩ none
  have split : before ++ opening :: after = (before ++ [opening]) ++ after := by simp
  rw [split, List.foldlM_append, beyond]
  rfl

theorem run_of_firstOrphan {tokens : List Token} {position : Nat}
    (within : ¬Token.PassesDepth maxDepth tokens) (orphan : Token.FirstOrphan tokens position) :
    tokens.foldlM (step maxDepth) {} = .error (.unbalanced position) := by
  obtain ⟨before, after, rfl, opened, level⟩ := orphan
  have nests := Token.nestsWithin_of_not_passesDepth within opened
  rw [Symbol.noOrphan_iff] at opened
  obtain ⟨nesting, ran⟩ := (run_ok_iff before {} (Nat.zero_le maxDepth)).mpr fun part inside => by
    simpa using ⟨opened part inside, nests part inside⟩
  have depth := run_depth before {} nesting ran
  rw [level] at depth
  refine Except.foldlM_eq_error_iff.mpr ⟨before, _, after, nesting, rfl, ran, ?_⟩
  have none : nesting.depth = 0 := by simpa using depth
  simp [step, none]

theorem check_of_run_error {tokens : List Token} {cause : EvalError}
    (refused : tokens.foldlM (step maxDepth) {} = .error cause) :
    check maxDepth tokens = .error cause := by
  rw [check, refused]
  rfl

theorem check_of_run {tokens : List Token} {final : Nesting}
    (ran : tokens.foldlM (step maxDepth) {} = .ok final) :
    check maxDepth tokens =
      if final.depth = 0 then .ok () else .error (.unbalanced final.outermost) := by
  rw [check, ran]
  rfl

theorem check_eq_error {tokens : List Token} {cause : EvalError}
    (refused : check maxDepth tokens = .error cause) :
    (cause = .tooDeep maxDepth ∧ Token.PassesDepth maxDepth tokens) ∨
      ∃ position, cause = .unbalanced position := by
  cases run : tokens.foldlM (step maxDepth) {} with
  | error other =>
    rw [check_of_run_error run] at refused
    cases refused
    exact (run_eq_error run).imp_right fun ⟨position, same, _⟩ => ⟨position, same⟩
  | ok final =>
    rw [check_of_run run] at refused
    split at refused
    · cases refused
    · exact .inr ⟨final.outermost, (Except.error.inj refused).symm⟩

/-! ## The outermost parenthesis -/

theorem step_outermost {nesting next : Nesting} {token : Token}
    (stepped : step maxDepth nesting token = .ok next) :
    next.outermost = if nesting.depth = 0 ∧ token.symbol = .opening then token.position
      else nesting.outermost := by
  obtain ⟨symbol, position⟩ := token
  unfold step at stepped
  cases symbol with
  | number lexeme => cases stepped; simp
  | operator op => cases stepped; simp
  | opening =>
    simp only at stepped
    split at stepped
    · cases stepped
    · split at stepped
      · rename_i outer
        cases stepped
        simp [outer]
      · rename_i inner
        cases stepped
        simp [inner]
  | closing =>
    simp only at stepped
    split at stepped
    · cases stepped
    · cases stepped
      simp

/-- The tokens read are balanced, or they are up to the outermost open parenthesis, which nothing
after it closes. -/
structure Keeps (tokens : List Token) (nesting : Nesting) : Prop where
  balanced : nesting.depth = 0 → Symbol.Balanced (tokens.map (·.symbol))
  enclosed : nesting.depth ≠ 0 → ∃ before after,
    tokens = before ++ ⟨.opening, nesting.outermost⟩ :: after ∧
    Symbol.Balanced (before.map (·.symbol)) ∧ Symbol.NoOrphan (after.map (·.symbol)) ∧
    (nesting.depth : Int) = Symbol.rise (after.map (·.symbol)) + 1

theorem keeps_nil : Keeps [] {} where
  balanced _ := ⟨rfl, by simp⟩
  enclosed nonzero := absurd rfl nonzero

theorem Keeps.step {tokens : List Token} {nesting next : Nesting} {token : Token}
    (keeps : Keeps tokens nesting) (stepped : Nesting.step maxDepth nesting token = .ok next) :
    Keeps (tokens ++ [token]) next := by
  have depth := step_depth nesting next token stepped
  have outermost := step_outermost stepped
  obtain ⟨symbol, position⟩ := token
  simp only at depth outermost
  by_cases outer : nesting.depth = 0
  · have balanced := keeps.balanced outer
    constructor
    · intro none
      have level : symbol.lift = 0 := by omega
      simpa using balanced.append (Symbol.balanced_singleton level)
    · intro some
      -- this parenthesis is the outermost one from here on
      have lifts : 0 < symbol.lift := by omega
      obtain rfl := Symbol.opening_of_lift_pos lifts
      rw [if_pos ⟨outer, rfl⟩] at outermost
      rw [outermost]
      exact ⟨tokens, [], rfl, balanced, Symbol.noOrphan_nil,
        by simpa [outer, Symbol.lift] using depth⟩
  · obtain ⟨before, after, rfl, balanced, opened, level⟩ := keeps.enclosed outer
    rw [if_neg fun both => outer both.1] at outermost
    have bounds := opened.rise_nonneg
    constructor
    · intro none
      -- the outermost parenthesis is closed, and nothing is open inside it
      have lowers : symbol.lift < 0 := by omega
      obtain rfl := Symbol.closing_of_lift_neg lowers
      have inner := opened.balanced (by simp only [Symbol.lift] at depth; omega)
      simpa using balanced.append inner.enclose
    · intro some
      refine ⟨before, after ++ [⟨symbol, position⟩], by simp [outermost], balanced, ?_, ?_⟩
      · simpa using opened.concat symbol (by omega)
      · simp only [List.map_append, Symbol.rise_append, List.map_cons, List.map_nil,
          Symbol.rise_cons, Symbol.rise_nil]
        omega

theorem Keeps.run {tokens : List Token} {final : Nesting}
    (ran : tokens.foldlM (Nesting.step maxDepth) {} = .ok final) : Keeps tokens final :=
  Except.foldlM_invariant Keeps (fun _ _ _ _ keeps stepped => keeps.step stepped) [] tokens {} final
    keeps_nil ran

/-- The outermost parenthesis that is open at the end is the leftmost that nothing closes. -/
theorem Keeps.firstUnclosed {tokens : List Token} {nesting : Nesting}
    (keeps : Keeps tokens nesting) (inside : nesting.depth ≠ 0) :
    Token.FirstUnclosed tokens nesting.outermost := by
  obtain ⟨before, after, rfl, balanced, opened, _⟩ := keeps.enclosed inside
  refine ⟨before, after, rfl, opened.not_closedWithin, ?_⟩
  rintro earlier place later rfl
  rw [List.map_append] at balanced ⊢
  exact balanced.closedWithin.append _

/-- What the check comes to, if it finds neither too many parentheses open nor one that closes
nothing. -/
theorem check_of_noOrphan {tokens : List Token} (within : ¬Token.PassesDepth maxDepth tokens)
    (opened : Symbol.NoOrphan (tokens.map (·.symbol))) :
    (Symbol.rise (tokens.map (·.symbol)) = 0 → check maxDepth tokens = .ok ()) ∧
      (0 < Symbol.rise (tokens.map (·.symbol)) → ∃ position,
        Token.FirstUnclosed tokens position ∧
          check maxDepth tokens = .error (.unbalanced position)) := by
  have whole : ¬Token.PassesDepth maxDepth (tokens ++ []) := by rwa [List.append_nil]
  have nests := Token.nestsWithin_of_not_passesDepth whole opened
  refine ⟨fun level => (check_ok_iff tokens).mpr ⟨opened.balanced level, nests⟩, fun left => ?_⟩
  rw [Symbol.noOrphan_iff] at opened
  obtain ⟨final, ran⟩ := (run_ok_iff tokens {} (Nat.zero_le maxDepth)).mpr fun part inside => by
    simpa using ⟨opened part inside, nests part inside⟩
  have depth := run_depth tokens {} final ran
  simp only [Int.natCast_zero, Int.zero_add] at depth
  have inside : final.depth ≠ 0 := by omega
  refine ⟨final.outermost, (Keeps.run ran).firstUnclosed inside, ?_⟩
  rw [check_of_run ran, if_neg inside]

end Nesting

/-! ## Depth -/

/-- A well-formed chain is as deep as parentheses are open anywhere in it, and no deeper. -/
theorem Chain.isGreatest_depth (chain : Expression) (wellFormed : chain.WellFormed) :
    IsGreatest (Symbol.rise '' {before | before <+: chain.symbols}) chain.depth := by
  have within := (chain.nestsWithin_iff wellFormed chain.depth).mpr (Nat.le_refl _)
  constructor
  · by_contra missed
    cases depth : chain.depth with
    | zero => exact missed ⟨[], List.nil_prefix, by simp [depth]⟩
    | succ less =>
      -- otherwise it would nest within one level less
      have shallow : Symbol.NestsWithin less chain.symbols := by
        intro before inside
        have bound := within before inside
        have other : Symbol.rise before ≠ chain.depth := fun same => missed ⟨before, inside, same⟩
        omega
      have depth' := (chain.nestsWithin_iff wellFormed less).mp shallow
      omega
  · rintro _ ⟨before, inside, rfl⟩
    exact within before inside

/-! ## The refusals of the parser -/

theorem Chain.parse_of_check_error {maxDepth endPosition : Nat} {tokens : List Token}
    {cause : EvalError} (refused : Nesting.check maxDepth tokens = .error cause) :
    Chain.parse maxDepth endPosition tokens = .error cause := by
  rw [Chain.parse, refused]
  rfl

theorem Chain.parse_eq_error_of_check {maxDepth endPosition : Nat} {tokens : List Token}
    {cause : EvalError} (checked : Nesting.check maxDepth tokens = .ok ())
    (refused : Chain.parse maxDepth endPosition tokens = .error cause) :
    ∃ position, cause = .misplaced position := by
  by_cases sentence : IsSentence (tokens.map (·.symbol))
  · obtain ⟨current, run⟩ := Parser.run_of_isSentence sentence
    rw [Chain.parse_of_check checked, run] at refused
    cases refused
  · rcases @Chain.parse_of_not_isSentence maxDepth endPosition tokens checked sentence with
      ⟨_, token, _, _, _, _, parsed⟩ | ⟨_, parsed⟩
    · rw [parsed] at refused
      exact ⟨token.position, (Except.error.inj refused).symm⟩
    · rw [parsed] at refused
      exact ⟨endPosition, (Except.error.inj refused).symm⟩

/-- A parenthesis beyond the limit is refused, unless one was closed before that was not open; then
the first that closes nothing is refused; and if there is none, the leftmost that is not closed.
Otherwise no parenthesis is refused. An accepted chain is as deep as parentheses are open at most,
which is within the limit, and in a text within the ceiling. -/
theorem Chain.parse_parentheses (maxDepth endPosition : Nat) (tokens : List Token) :
    (∀ limit, Chain.parse maxDepth endPosition tokens = .error (.tooDeep limit) ↔
      limit = maxDepth ∧ Token.PassesDepth maxDepth tokens) ∧
    (¬Token.PassesDepth maxDepth tokens →
      (∀ position, Token.FirstOrphan tokens position →
        Chain.parse maxDepth endPosition tokens = .error (.unbalanced position)) ∧
      ((¬∃ position, Token.FirstOrphan tokens position) →
        (0 < Symbol.rise (tokens.map (·.symbol)) → ∃ position,
          Token.FirstUnclosed tokens position ∧
            Chain.parse maxDepth endPosition tokens = .error (.unbalanced position)) ∧
        (Symbol.rise (tokens.map (·.symbol)) ≤ 0 → ∀ position,
          Chain.parse maxDepth endPosition tokens ≠ .error (.unbalanced position)))) ∧
    (∀ chain, Chain.parse maxDepth endPosition tokens = .ok chain →
      IsGreatest (Symbol.rise '' {before | before <+: tokens.map (·.symbol)}) chain.depth ∧
        chain.depth ≤ maxDepth) ∧
    (∀ position, (EvalError.unbalanced position).report =
      .malformed "parentheses mismatch" (some position)) ∧
    ∀ limits text tokens chain, readExpression limits text = .ok (tokens, chain) →
      chain.depth ≤ 1024 := by
  refine ⟨fun limit => ⟨fun refused => ?_, ?_⟩, fun within => ⟨?_, fun none => ?_⟩, ?_,
    fun _ => rfl, ?_⟩
  · cases checked : Nesting.check maxDepth tokens with
    | ok _ =>
      obtain ⟨position, same⟩ := Chain.parse_eq_error_of_check checked refused
      cases same
    | error cause =>
      rw [Chain.parse_of_check_error checked] at refused
      cases refused
      rcases Nesting.check_eq_error checked with ⟨same, passes⟩ | ⟨position, same⟩
      · exact ⟨EvalError.tooDeep.inj same, passes⟩
      · cases same
  · rintro ⟨rfl, passes⟩
    exact Chain.parse_of_check_error
      (Nesting.check_of_run_error (Nesting.run_of_passesDepth passes))
  · intro position orphan
    exact Chain.parse_of_check_error
      (Nesting.check_of_run_error (Nesting.run_of_firstOrphan within orphan))
  · have opened := (Token.noOrphan_iff_not_firstOrphan tokens).mpr none
    obtain ⟨level, left⟩ := Nesting.check_of_noOrphan within opened
    constructor
    · intro some
      obtain ⟨position, unclosed, refused⟩ := left some
      exact ⟨position, unclosed, Chain.parse_of_check_error refused⟩
    · intro notSome position refused
      have checked := level (Int.le_antisymm notSome opened.rise_nonneg)
      obtain ⟨_, same⟩ := Chain.parse_eq_error_of_check checked refused
      cases same
  · intro chain parsed
    obtain ⟨wellFormed, spells, depth⟩ := (Chain.parse_ok_iff _ _ _ _).mp parsed
    rw [spells.symbols]
    exact ⟨chain.isGreatest_depth wellFormed, depth⟩
  · intro limits text tokens chain accepted
    obtain ⟨_, _, parsed⟩ := (readExpression_ok_iff _ _ _ _).mp accepted
    obtain ⟨_, _, depth⟩ := (Chain.parse_ok_iff _ _ _ _).mp parsed
    exact depth.trans (Nat.min_le_right _ _)

def unclosedTokens : List Token :=
  [⟨.opening, 0⟩, ⟨.number ['1'], 1⟩, ⟨.closing, 2⟩, ⟨.operator .add, 3⟩, ⟨.opening, 4⟩,
    ⟨.opening, 5⟩, ⟨.number ['2'], 6⟩, ⟨.closing, 7⟩]

theorem Chain.parse_parentheses_unclosed :
    (¬Token.PassesDepth 2 unclosedTokens ∧
      (¬∃ position, Token.FirstOrphan unclosedTokens position) ∧
      0 < Symbol.rise (unclosedTokens.map (·.symbol)) ∧
      Token.FirstUnclosed unclosedTokens 4 ∧
      Chain.parse 2 8 unclosedTokens = .error (.unbalanced 4)) ∧
    (∃ chain, Chain.parse 2 9 (unclosedTokens ++ [⟨.closing, 8⟩]) = .ok chain ∧
      chain.depth = 2) ∧
    Token.PassesDepth 1 unclosedTokens := by
  obtain ⟨tooDeep, refused, _⟩ := Chain.parse_parentheses 2 8 unclosedTokens
  have parsed : Chain.parse 2 8 unclosedTokens = .error (.unbalanced 4) := rfl
  have within : ¬Token.PassesDepth 2 unclosedTokens := by
    intro passes
    have other := (tooDeep 2).mpr ⟨rfl, passes⟩
    rw [parsed] at other
    cases other
  -- the check goes through all of them, so that no parenthesis closes nothing
  have bounds := (Nesting.run_ok_iff unclosedTokens {} (Nat.zero_le 2)).mp ⟨⟨1, 4⟩, rfl⟩
  have opened : Symbol.NoOrphan (unclosedTokens.map (·.symbol)) :=
    (Symbol.noOrphan_iff _).mpr fun before inside => by simpa using (bounds before inside).1
  have none := (Token.noOrphan_iff_not_firstOrphan unclosedTokens).mp opened
  have left : 0 < Symbol.rise (unclosedTokens.map (·.symbol)) := by decide
  obtain ⟨position, unclosed, same⟩ := ((refused within).2 none).1 left
  rw [parsed] at same
  obtain rfl := EvalError.unbalanced.inj (Except.error.inj same)
  refine ⟨⟨within, none, left, unclosed, parsed⟩, ⟨_, rfl, by decide⟩, ?_⟩
  obtain ⟨tooDeep, _⟩ := Chain.parse_parentheses 1 8 unclosedTokens
  exact ((tooDeep 1).mp rfl).2

end ExactCalc
