import ExactCalc.Proofs.Decimal.Bounds
import ExactCalc.Proofs.Decimal.ExactReading
import ExactCalc.Proofs.Evaluation.Precedence

/-! Evaluations are exact as long as all values on the way are representable.

Decimals and rational numbers then agree on every part of a derivation: each decimal is exactly its
number, and the one operation that fails on either side is a division by zero.
-/

set_option autoImplicit false

namespace ExactCalc

namespace Grammar

/-- Exact rational arithmetic, in which a division by zero has no result. -/
def rationals : Semantics ℚ where
  literal lexeme := some (literalMagnitude lexeme).toRat
  negate q := -q
  apply
    | .add, p, q => some (p + q)
    | .sub, p, q => some (p - q)
    | .mul, p, q => some (p * q)
    | .div, p, q => if q = 0 then none else some (p / q)

/-- There is neither a decimal nor a number, or the decimal is exactly the number. -/
inductive Agrees : Option Decimal → Option ℚ → Prop where
  | absent : Agrees none none
  | exactly {d : Decimal} {q : ℚ} : d.IsExactly q → Agrees (some d) (some q)

def IsDivisionByZero (error : EvalError) : Prop :=
  ∃ a b, error = .fault (.divisionByZero a b)

/-! ## One operator -/

section

variable {a b : Decimal} {p q : ℚ}

theorem apply_exact (op : Operator) (left : a.IsExactly p) (right : b.IsExactly q)
    (representable : ∀ x, rationals.apply op p q = some x → IsRepresentable x) :
    (∃ x result, rationals.apply op p q = some x ∧ op.apply a b = .ok result ∧
      result.IsExactly x) ∨
      (rationals.apply op p q = none ∧ op.apply a b = .error (.divisionByZero a b)) := by
  cases op with
  | add =>
    obtain ⟨sum, computed, exactly⟩ := Decimal.add_exact left right (representable _ rfl)
    exact Or.inl ⟨_, sum, rfl, Operator.apply_of_compute (by simp) computed, exactly⟩
  | sub =>
    obtain ⟨difference, computed, exactly⟩ := Decimal.sub_exact left right (representable _ rfl)
    exact Or.inl ⟨_, difference, rfl, Operator.apply_of_compute (by simp) computed, exactly⟩
  | mul =>
    obtain ⟨product, computed, exactly⟩ := Decimal.mul_exact left right (representable _ rfl)
    exact Or.inl ⟨_, product, rfl, Operator.apply_of_compute (by simp) computed, exactly⟩
  | div =>
    have isZero : b.isZero ↔ q = 0 := by rw [← Decimal.toRat_eq_zero_iff, right.toRat]
    by_cases zero : q = 0
    · refine Or.inr ⟨if_pos zero, ?_⟩
      unfold Operator.apply
      exact if_pos ⟨rfl, isZero.mpr zero⟩
    · obtain ⟨quotient, computed, exactly⟩ :=
        Decimal.div_exact left right zero (representable _ (if_neg zero))
      have other : ¬(Operator.div = .div ∧ b.isZero) := fun both => zero (isZero.mp both.2)
      exact Or.inl ⟨_, quotient, if_neg zero, Operator.apply_of_compute other computed, exactly⟩

end

section

variable {op : Operator} {left right : Option Decimal} {p q : Option ℚ}

theorem Agrees.combine (agreesLeft : Agrees left p) (agreesRight : Agrees right q)
    (representable : ∀ x, rationals.combine op p q = some x → IsRepresentable x) :
    Agrees (decimals.combine op left right) (rationals.combine op p q) := by
  cases agreesLeft with
  | absent => exact .absent
  | exactly exactlyLeft =>
    cases agreesRight with
    | absent => exact .absent
    | @exactly b q exactlyRight =>
      rcases apply_exact op exactlyLeft exactlyRight representable with
        ⟨x, result, value, applied, exactly⟩ | ⟨undefined, failed⟩
      · have defined : rationals.combine op (some _) (some q) = some x := value
        rw [defined, combine_ok applied]
        exact .exactly exactly
      · have unknown : rationals.combine op (some _) (some q) = none := undefined
        have refused : decimals.combine op (some _) (some b) = none :=
          combine_of_raises id id (Or.inr (Or.inr ⟨_, _, _, rfl, rfl, failed, rfl⟩))
        rw [unknown, refused]
        exact .absent

theorem Agrees.refuses (agreesLeft : Agrees left p) (agreesRight : Agrees right q)
    (representable : ∀ x, rationals.combine op p q = some x → IsRepresentable x)
    {error : EvalError} (refuses : Refuses op left right error) : IsDivisionByZero error := by
  obtain ⟨a, b, cause, rfl, rfl, failed, rfl⟩ := refuses
  cases agreesLeft with
  | exactly exactlyLeft =>
    cases agreesRight with
    | exactly exactlyRight =>
      rcases apply_exact op exactlyLeft exactlyRight representable with
        ⟨x, result, value, applied, exactly⟩ | ⟨undefined, divided⟩
      · rw [applied] at failed
        cases failed
      · rw [divided] at failed
        cases failed
        exact ⟨a, b, rfl⟩

end

/-! ## Derivations -/

structure Exact (value : Option Decimal) (exactly : Option ℚ) (Raises : EvalError → Prop) :
    Prop where
  agrees : Agrees value exactly
  raises : ∀ error, Raises error → IsDivisionByZero error

theorem Exact.combine {op : Operator} {left right : Option Decimal} {p q : Option ℚ}
    {RaisesLeft RaisesRight : EvalError → Prop} (exactLeft : Exact left p RaisesLeft)
    (exactRight : Exact right q RaisesRight)
    (representable : ∀ x, rationals.combine op p q = some x → IsRepresentable x) :
    Exact (decimals.combine op left right) (rationals.combine op p q) (fun error =>
      RaisesLeft error ∨ RaisesRight error ∨ Refuses op left right error) := by
  refine ⟨exactLeft.agrees.combine exactRight.agrees representable, ?_⟩
  rintro error (raises | raises | refuses)
  · exact exactLeft.raises error raises
  · exact exactRight.raises error raises
  · exact exactLeft.agrees.refuses exactRight.agrees representable refuses

def DecimalLiterals (symbols : List Symbol) : Prop :=
  ∀ lexeme, .number lexeme ∈ symbols → IsDecimalLiteral lexeme

theorem DecimalLiterals.left {first rest : List Symbol}
    (literals : DecimalLiterals (first ++ rest)) : DecimalLiterals first :=
  fun lexeme inside => literals lexeme (List.mem_append_left rest inside)

theorem DecimalLiterals.right {first rest : List Symbol} {symbol : Symbol}
    (literals : DecimalLiterals (first ++ symbol :: rest)) : DecimalLiterals rest :=
  fun lexeme inside =>
    literals lexeme (List.mem_append_right first (List.mem_cons_of_mem symbol inside))

theorem Agrees.signed {value : Option Decimal} {exactly : Option ℚ} (agrees : Agrees value exactly)
    (negated : Bool) :
    Agrees (value.map (decimals.signed negated)) (exactly.map (rationals.signed negated)) := by
  cases agrees with
  | absent => exact .absent
  | exactly exactly =>
    cases negated with
    | false => exact .exactly exactly
    | true => exact .exactly exactly.negate

mutual

theorem Factor.exact : ∀ factor : Factor, DecimalLiterals factor.symbols →
    factor.AllValues rationals IsRepresentable →
    Exact (factor.value decimals) (factor.value rationals) (factor.Raises ·)
  | .literal lexeme, literals, representable => by
    obtain ⟨value, read, exactly⟩ := Decimal.read_exact
      (literals lexeme (List.mem_singleton.mpr rfl)) (representable _ rfl)
    have known : (Factor.literal lexeme).value decimals = some value := by
      change (Decimal.read lexeme).toOption = some value
      rw [read]
      rfl
    refine ⟨by rw [known]; exact .exactly exactly, ?_⟩
    rintro error ⟨cause, failed, _⟩
    rw [read] at failed
    cases failed
  | .group inner, literals, representable =>
    inner.exact (fun lexeme inside => literals lexeme
      (List.mem_cons_of_mem _ (List.mem_append_left _ inside))) representable

theorem Term.exact (negated : Bool) : ∀ term : Term, DecimalLiterals term.symbols →
    term.AllValues rationals IsRepresentable negated →
    Exact (term.value decimals negated) (term.value rationals negated) (term.Raises · negated)
  | .factor only, literals, representable =>
    have exactly := only.exact literals representable
    ⟨exactly.agrees.signed negated, exactly.raises⟩
  | .more before _ _ last, literals, ⟨first, rest, result⟩ =>
    (before.exact negated literals.left first).combine (last.exact literals.right rest) result

theorem Expr.exact : ∀ expr : Expr, DecimalLiterals expr.symbols →
    expr.AllValues rationals IsRepresentable →
    Exact (expr.value decimals) (expr.value rationals) (expr.Raises ·)
  | .first negated term, literals, representable =>
    term.exact negated (fun lexeme inside => literals lexeme (List.mem_append_right _ inside))
      representable
  | .more before _ _ last, literals, ⟨first, rest, result⟩ =>
    (before.exact literals.left first).combine (last.exact false literals.right rest) result

end

end Grammar

theorem reason_divisionByZero (a b : Decimal) :
    ∃ operands, (Fault.divisionByZero a b).reason = "division par zéro" ++ operands := by
  have split : "division par zéro (" = "division par zéro" ++ " (" := by decide +kernel
  have named (x y : String) :
      s!"division par zéro ({x} / {y})" = "division par zéro" ++ s!" ({x} / {y})" := by
    simp only [toString, split, String.append_assoc]
  -- the equation of `Fault.reason` would compute with both texts
  unfold Fault.reason
  dsimp only
  exact ⟨_, named _ _⟩

/-- If every literal of an accepted text is written as a decimal, and if all literals and all
results on the way are representable numbers, then the text has exactly its rational value, or it is
refused as a division by zero where there is none. -/
theorem evaluate_exact {limits : Limits} {text : List Char} {tokens : List Token}
    {chain : Expression} (accepted : readExpression limits text = .ok (tokens, chain))
    {derivation : Grammar.Expr} (derives : derivation.symbols = tokens.map Token.symbol)
    (literals : ∀ lexeme, .number lexeme ∈ tokens.map Token.symbol → IsDecimalLiteral lexeme)
    (representable : derivation.AllValues Grammar.rationals IsRepresentable) :
    (∀ q, derivation.value Grammar.rationals = some q →
      ∃ result, evaluate limits text = .ok result ∧ result.IsExactly q) ∧
    (derivation.value Grammar.rationals = none →
      ∃ error operands, evaluate limits text = .error error ∧
        error.report = .arithmetic ("division par zéro" ++ operands)) := by
  obtain ⟨_, _, parsed⟩ := (readExpression_ok_iff limits text tokens chain).mp accepted
  have wellFormed := ((Chain.parse_ok_iff _ _ _ _).mp parsed).1
  have grouped := (Grammar.symbols_eq_iff parsed derivation).mp derives
  have settles := Grammar.outcome_settles chain wellFormed
  rw [← derives] at literals
  obtain ⟨agrees, raises⟩ := derivation.exact literals representable
  rw [← grouped, ← evaluate_eq_outcome accepted] at settles
  cases came : evaluate limits text with
  | ok result =>
    rw [came] at settles
    rw [show derivation.value Grammar.decimals = some result from settles] at agrees
    generalize derivation.value Grammar.rationals = value at agrees ⊢
    cases agrees with
    | exactly exactly =>
      refine ⟨fun q same => ⟨result, rfl, ?_⟩, nofun⟩
      cases same
      exact exactly
  | error error =>
    rw [came] at settles
    rw [derivation.value_of_raises settles] at agrees
    generalize derivation.value Grammar.rationals = value at agrees ⊢
    cases agrees with
    | absent =>
      refine ⟨nofun, fun _ => ?_⟩
      obtain ⟨a, b, rfl⟩ := raises error settles
      obtain ⟨operands, reason⟩ := reason_divisionByZero a b
      exact ⟨_, operands, rfl, congrArg Report.arithmetic reason⟩

def largeSumText : List Char := List.replicate 28 '7' ++ ['+', '1', '.', '0', '0']

def largeSumTokens : List Token :=
  [⟨.number (List.replicate 28 '7'), 0⟩, ⟨.operator .add, 28⟩, ⟨.number ['1', '.', '0', '0'], 29⟩]

def Grammar.Expr.largeSum : Grammar.Expr :=
  .more (.first false (.factor (.literal (List.replicate 28 '7')))) .add
    Operator.isMultiplicative_add (.factor (.literal ['1', '.', '0', '0']))

/-- Written with two decimals this sum passes the bound of the mantissas. -/
theorem evaluate_largeSum :
    (∃ chain, readExpression ⟨8, 40⟩ largeSumText = .ok (largeSumTokens, chain)) ∧
      Grammar.Expr.largeSum.AllValues Grammar.rationals IsRepresentable ∧
      ∃ result, evaluate ⟨8, 40⟩ largeSumText = .ok result ∧
        result.IsExactly 7777777777777777777777777778 := by
  have accepted : readExpression ⟨8, 40⟩ largeSumText = .ok (largeSumTokens,
      ⟨false, [.literal (List.replicate 28 '7') 0, .literal ['1', '.', '0', '0'] 29], [.add]⟩) :=
    rfl
  have derives : Grammar.Expr.largeSum.symbols = largeSumTokens.map Token.symbol := rfl
  have literals : Grammar.DecimalLiterals (largeSumTokens.map Token.symbol) := by
    intro lexeme inside
    rcases List.mem_cons.mp inside with same | later
    · cases same
      exact .whole (by decide) (by decide)
    rcases List.mem_cons.mp later with same | last
    · cases same
    cases List.mem_singleton.mp last
    change IsDecimalLiteral (['1'] ++ '.' :: ['0', '0'])
    exact .pointed (by decide) (by decide) (by decide)
  have first : literalMagnitude (List.replicate 28 '7') = ⟨7777777777777777777777777777, 0⟩ := rfl
  have last : literalMagnitude ['1', '.', '0', '0'] = ⟨100, 2⟩ := rfl
  have value : Grammar.Expr.largeSum.value Grammar.rationals =
      some 7777777777777777777777777778 := by
    change some ((literalMagnitude (List.replicate 28 '7')).toRat +
      (literalMagnitude ['1', '.', '0', '0']).toRat) = _
    rw [first, last, Magnitude.toRat, Magnitude.toRat]
    norm_num
  have representable : Grammar.Expr.largeSum.AllValues Grammar.rationals IsRepresentable := by
    refine ⟨?_, ?_, ?_⟩
    · rintro _ ⟨rfl⟩
      rw [first]
      exact Magnitude.Fits.isRepresentable ⟨by decide, by decide⟩
    · rintro _ ⟨rfl⟩
      rw [last]
      exact Magnitude.Fits.isRepresentable ⟨by decide, by decide⟩
    · intro q same
      obtain rfl := Option.some.inj (value.symm.trans same)
      exact ⟨7777777777777777777777777778, 0, by norm_num, by norm_num, by norm_num⟩
  obtain ⟨defined, _⟩ := evaluate_exact accepted derives literals representable
  exact ⟨⟨_, accepted⟩, representable, defined _ value⟩

end ExactCalc
