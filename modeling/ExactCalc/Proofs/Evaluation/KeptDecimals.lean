import ExactCalc.Proofs.Decimal.KeptDecimals
import ExactCalc.Proofs.Evaluation.PrintedValue

/-! Sums of literals keep the decimals that are written in them.

Each partial sum has as many decimals as the literals before it, so the next literal is added to it
without rounding, if the result fits with the larger number of decimals. A literal itself has to fit
as it is written: reading it gives up decimals otherwise.
-/

set_option autoImplicit false

namespace ExactCalc

/-- A sum as it is written: a literal, perhaps behind a head minus, and operators with the literal
behind each. -/
structure WrittenSum where
  negated : Bool
  first : List Char
  rest : List (Operator × List Char)

namespace WrittenSum

def text (sum : WrittenSum) : List Char :=
  (if sum.negated then ['-'] else []) ++ sum.first ++
    sum.rest.flatMap fun (op, lexeme) => op.symbol :: lexeme

def lexemes (sum : WrittenSum) : List (List Char) := sum.first :: sum.rest.map Prod.snd

def totalFrom (start : ℚ) (rest : List (Operator × List Char)) : ℚ :=
  rest.foldl (fun total (op, lexeme) => op.exact total (literalMagnitude lexeme).toRat) start

def decimalsFrom (start : ℕ) (rest : List (Operator × List Char)) : ℕ :=
  rest.foldl (fun most (_, lexeme) => max most (literalMagnitude lexeme).scale) start

def head (sum : WrittenSum) : Decimal := (literalMagnitude sum.first).withSign sum.negated

def total (sum : WrittenSum) : ℚ := totalFrom sum.head.toRat sum.rest

def decimals (sum : WrittenSum) : ℕ := decimalsFrom sum.head.scale sum.rest

def upTo (sum : WrittenSum) (count : ℕ) : WrittenSum := { sum with rest := sum.rest.take count }

def Fits (sum : WrittenSum) : Prop := |sum.total| * 10 ^ sum.decimals < 2 ^ 96

/-- The operators are those of sums and differences, and the literals are decimals other than
zero. -/
structure WellWritten (sum : WrittenSum) : Prop where
  additive : ∀ pair ∈ sum.rest, pair.1.isMultiplicative = false
  literals : ∀ lexeme ∈ sum.lexemes, IsDecimalLiteral lexeme
  nonzero : ∀ lexeme ∈ sum.lexemes, (literalMagnitude lexeme).mantissa ≠ 0

/-! ## Adding literal by literal -/

open Grammar

theorem value_literal {lexeme : List Char} (literal : IsDecimalLiteral lexeme)
    (fits : (literalMagnitude lexeme).Fits) :
    (Factor.literal lexeme).value Grammar.decimals =
      some ((literalMagnitude lexeme).withSign false) :=
  decimals_literal_eq_some_iff.mpr
    ((Decimal.read_lexeme_ok_iff literal.isLexeme _).mpr ⟨literal, rfl, fits.roundsTo_self⟩)

def factors (rest : List (Operator × List Char)) : List (Operator × Factor) :=
  rest.map fun (op, lexeme) => (op, .literal lexeme)

theorem value_extend {before : Expr} {op : Operator} {lexeme : List Char} {a b result : Decimal}
    (additive : op.isMultiplicative = false) (known : before.value Grammar.decimals = some a)
    (read : (Factor.literal lexeme).value Grammar.decimals = some b)
    (applied : op.apply a b = .ok result) :
    (before.extend (op, .literal lexeme)).value Grammar.decimals = some result := by
  have loose : ¬op.isMultiplicative = true := Bool.eq_false_iff.mp additive
  rw [Expr.extend, dif_neg loose, Expr.value, known, value_single read]
  exact combine_ok applied

theorem foldl_extend_kept {rest : List (Operator × List Char)} {before : Expr} {current : Decimal}
    (known : before.value Grammar.decimals = some current)
    (additive : ∀ pair ∈ rest, pair.1.isMultiplicative = false)
    (literals : ∀ pair ∈ rest, IsDecimalLiteral pair.2 ∧ (literalMagnitude pair.2).mantissa ≠ 0 ∧
      (literalMagnitude pair.2).Fits)
    (nonzero : ∀ count < rest.length, totalFrom current.toRat (rest.take count) ≠ 0)
    (fits : ∀ count, |totalFrom current.toRat (rest.take count)| *
      10 ^ decimalsFrom current.scale (rest.take count) < 2 ^ 96) :
    ∃ value, ((factors rest).foldl Expr.extend before).value Grammar.decimals = some value ∧
      value.toRat = totalFrom current.toRat rest ∧
      value.scale = decimalsFrom current.scale rest := by
  induction rest generalizing before current with
  | nil => exact ⟨current, known, rfl, rfl⟩
  | cons pair rest ih =>
    obtain ⟨op, lexeme⟩ := pair
    obtain ⟨firstAdditive, othersAdditive⟩ := List.forall_mem_cons.mp additive
    obtain ⟨⟨literal, literalNonzero, literalFits⟩, others⟩ := List.forall_mem_cons.mp literals
    have read := value_literal literal literalFits
    have added : ((literalMagnitude lexeme).withSign false).toRat ≠ 0 := by
      rw [Ne, Decimal.toRat_eq_zero_iff]
      simpa [Decimal.isZero, Magnitude.withSign] using literalNonzero
    obtain ⟨next, applied, value, scale⟩ := Operator.exists_kept firstAdditive
      (before.value_holds decimals_keep_representable known) (literalFits.withSign false)
      (nonzero 0 (Nat.zero_lt_succ _)) added (fits 1)
    have extended := value_extend firstAdditive known read applied
    -- the partial sums from here on are those with one literal more
    have laterNonzero : ∀ count < rest.length,
        totalFrom next.toRat (rest.take count) ≠ 0 := by
      intro count more
      rw [value]
      exact nonzero (count + 1) (Nat.succ_lt_succ more)
    have laterFits : ∀ count, |totalFrom next.toRat (rest.take count)| *
        10 ^ decimalsFrom next.scale (rest.take count) < 2 ^ 96 := by
      intro count
      rw [value, scale]
      exact fits (count + 1)
    obtain ⟨result, came, total, most⟩ :=
      ih extended othersAdditive others laterNonzero laterFits
    refine ⟨result, came, ?_, ?_⟩
    · rw [total, value]
      rfl
    · rw [most, scale]
      rfl

/-! ## A written sum as a chain -/

def chain (sum : WrittenSum) : Expression where
  negated := sum.negated
  operands := .literal sum.first 0 :: sum.rest.map fun pair => .literal pair.2 0
  operators := sum.rest.map Prod.fst

variable {sum : WrittenSum}

theorem wellFormed_chain (sum : WrittenSum) : sum.chain.WellFormed := by
  refine (Chain.wellFormed_iff _).mpr ⟨by simp [chain], ?_⟩
  simp only [chain, List.forall_mem_cons, List.forall_mem_map]
  exact ⟨trivial, fun _ _ => trivial⟩

theorem depth_chain (sum : WrittenSum) : sum.chain.depth = 0 := by
  refine Nat.le_zero.mp ((Chain.depth_le_iff _ _).mpr ?_)
  simp only [chain, List.forall_mem_cons, List.forall_mem_map]
  exact ⟨Nat.le_refl 0, fun _ _ => Nat.le_refl 0⟩

theorem symbols_chain (sum : WrittenSum) :
    sum.chain.symbols = Symbol.head sum.negated ++ .number sum.first ::
      sum.rest.flatMap fun (op, lexeme) => [.operator op, .number lexeme] := by
  rw [chain, Chain.symbols_cons _ _ _ _ (by simp), List.zip_map', Symbol.series, List.flatMap_map,
    Operand.symbols_literal, List.append_assoc]
  rfl

theorem ofChain_chain (sum : WrittenSum) :
    ofChain sum.chain = (factors sum.rest).foldl Expr.extend
      (.first sum.negated (.factor (.literal sum.first))) := by
  rw [chain, ofChain_cons, List.map_map, List.zip_map']
  rfl

theorem print_chain (sum : WrittenSum) : sum.chain.print = sum.text := by
  obtain ⟨negated, first, rest⟩ := sum
  have series : (rest.flatMap fun (op, lexeme) => [.operator op, .number lexeme]).flatMap
      Symbol.text = rest.flatMap fun (op, lexeme) => op.symbol :: lexeme := by
    rw [List.flatMap_assoc]
    simp [Symbol.text]
  have sign : (Symbol.head negated).flatMap Symbol.text = if negated then ['-'] else [] := by
    cases negated <;> rfl
  rw [Chain.print, symbols_chain, List.flatMap_append, List.flatMap_cons, series, sign, text,
    List.append_assoc]
  rfl

theorem mem_lexemes_of_chain {lexeme : List Char} (member : .number lexeme ∈ sum.chain.symbols) :
    lexeme ∈ sum.lexemes := by
  rw [symbols_chain] at member
  rcases List.mem_append.mp member with sign | behind
  · rw [Symbol.head] at sign
    split at sign <;> simp at sign
  · rcases List.mem_cons.mp behind with same | later
    · exact List.mem_cons.mpr (.inl (Symbol.number.inj same))
    · obtain ⟨pair, inside, found⟩ := List.mem_flatMap.mp later
      obtain rfl : lexeme = pair.2 := by simpa using found
      exact List.mem_cons_of_mem _ (List.mem_map_of_mem inside)

theorem value_head (literal : IsDecimalLiteral sum.first)
    (nonzero : (literalMagnitude sum.first).mantissa ≠ 0)
    (fits : (literalMagnitude sum.first).Fits) :
    (Expr.first sum.negated (.factor (.literal sum.first))).value Grammar.decimals =
      some sum.head := by
  obtain ⟨negated, first, rest⟩ := sum
  rw [Expr.value, Term.value, value_literal literal fits]
  cases negated with
  | false => rfl
  | true =>
    have negative : ((literalMagnitude first).withSign false).negate =
        (literalMagnitude first).withSign true := by
      simp [Decimal.negate, Decimal.isZero, Magnitude.withSign, nonzero]
    exact congrArg some negative

theorem evaluate_text {limits : Limits} (wellWritten : sum.WellWritten)
    (literalsFit : ∀ lexeme ∈ sum.lexemes, (literalMagnitude lexeme).Fits)
    (nonzero : ∀ count < sum.rest.length, (sum.upTo count).total ≠ 0)
    (fits : ∀ count, (sum.upTo count).Fits) (short : byteLength sum.text ≤ limits.maxLength) :
    ∃ value, evaluate limits sum.text = .ok value ∧ value.toRat = sum.total ∧
      value.scale = sum.decimals := by
  obtain ⟨additive, literals, literalsNonzero⟩ := wellWritten
  have first : sum.first ∈ sum.lexemes := List.mem_cons_self
  have others : ∀ pair ∈ sum.rest, IsDecimalLiteral pair.2 ∧
      (literalMagnitude pair.2).mantissa ≠ 0 ∧ (literalMagnitude pair.2).Fits := by
    intro pair inside
    have member : pair.2 ∈ sum.lexemes := List.mem_cons_of_mem _ (List.mem_map_of_mem inside)
    exact ⟨literals _ member, literalsNonzero _ member, literalsFit _ member⟩
  have known := value_head (literals _ first) (literalsNonzero _ first) (literalsFit _ first)
  obtain ⟨value, derived, total, decimals⟩ := foldl_extend_kept known additive others nonzero fits
  rw [← ofChain_chain, ← outcome_ok_iff sum.wellFormed_chain] at derived
  -- the text is read as the chain, positions apart, and so has the value of its derivation
  rw [← print_chain] at short ⊢
  obtain ⟨tokens, read, accepted, unplaced⟩ := readExpression_print sum.wellFormed_chain
    (fun lexeme member => (literals lexeme (mem_lexemes_of_chain member)).isLexeme) short
    (sum.depth_chain.trans_le (Nat.zero_le _))
  refine ⟨value, ?_, total, decimals⟩
  rw [evaluate_eq_outcome accepted, ← read.outcome_unplaced, unplaced, Chain.outcome_unplaced,
    derived]

end WrittenSum

/-- Sums, differences and products of decimals other than zero keep all their decimals, zeros at
the end included, as long as the coefficient written with them fits: a sum or a difference has as
many as the operand with more of them, a product as many as both operands together. So a sum of
literals that fit as they are written has the largest number of decimals written in it, if its
partial sums fit with theirs and nothing is added to zero. -/
theorem decimals_kept :
    (∀ a b : Decimal, a.Representable → b.Representable → ¬a.isZero → ¬b.isZero →
      (∀ op : Operator, op.isMultiplicative = false → ∀ coefficient : ℤ,
        op.exact a.toRat b.toRat = coefficient / 10 ^ max a.scale b.scale →
        |coefficient| < 2 ^ 96 →
        op.apply a b = .ok (.ofCoefficient coefficient (max a.scale b.scale))) ∧
      (a.scale + b.scale ≤ 28 → a.mantissa * b.mantissa < 2 ^ 96 → Operator.mul.apply a b =
        .ok ⟨a.negative ^^ b.negative, a.mantissa * b.mantissa, a.scale + b.scale⟩)) ∧
    ∀ (limits : Limits) (sum : WrittenSum), sum.WellWritten →
      (∀ lexeme ∈ sum.lexemes, (literalMagnitude lexeme).Fits) →
      (∀ count < sum.rest.length, (sum.upTo count).total ≠ 0) →
      (∀ count, (sum.upTo count).Fits) → byteLength sum.text ≤ limits.maxLength →
      ∃ value, evaluate limits sum.text = .ok value ∧ value.toRat = sum.total ∧
        value.scale = sum.decimals := by
  refine ⟨fun a b left right leftNonzero rightNonzero => ⟨?_, ?_⟩, ?_⟩
  · intro op additive coefficient written bound
    exact Operator.apply_keeps additive left right leftNonzero rightNonzero written bound
  · intro scale bound
    exact Operator.apply_of_compute (by simp)
      (Decimal.mul_keeps leftNonzero rightNonzero scale bound)
  · exact fun limits sum wellWritten literalsFit nonzero fits short =>
      sum.evaluate_text wellWritten literalsFit nonzero fits short

namespace WrittenSum

theorem forall_upTo_pair {property : WrittenSum → Prop} {negated : Bool} {first : List Char}
    {pair : Operator × List Char} (alone : property ⟨negated, first, []⟩)
    (both : property ⟨negated, first, [pair]⟩) (count : ℕ) :
    property (upTo ⟨negated, first, [pair]⟩ count) := by
  cases count with
  | zero => exact alone
  | succ count =>
    rw [upTo, List.take_succ_cons, List.take_nil]
    exact both

theorem total_alone (negated : Bool) (first : List Char) :
    total ⟨negated, first, []⟩ = ((literalMagnitude first).withSign negated).toRat := rfl

theorem total_pair (negated : Bool) (first lexeme : List Char) (op : Operator) :
    total ⟨negated, first, [(op, lexeme)]⟩ =
      op.exact ((literalMagnitude first).withSign negated).toRat
        (literalMagnitude lexeme).toRat := rfl

theorem decimals_alone (negated : Bool) (first : List Char) :
    decimals ⟨negated, first, []⟩ = (literalMagnitude first).scale := rfl

theorem decimals_pair (negated : Bool) (first lexeme : List Char) (op : Operator) :
    decimals ⟨negated, first, [(op, lexeme)]⟩ =
      max (literalMagnitude first).scale (literalMagnitude lexeme).scale := rfl

end WrittenSum

def halvesSum : WrittenSum := ⟨true, "0.50".toList, [(.add, "1.5".toList)]⟩

open WrittenSum in
theorem decimals_kept_zeros :
    Operator.sub.apply (⟨false, 150, 2⟩ : Decimal) ⟨false, 15, 1⟩ = .ok ⟨false, 0, 2⟩ ∧
      Operator.mul.apply (⟨false, 150, 2⟩ : Decimal) ⟨true, 20, 1⟩ = .ok ⟨true, 3000, 3⟩ ∧
      ∃ value, evaluate {} "-0.50+1.5".toList = .ok value ∧ value.toRat = 1 ∧
        value.scale = 2 := by
  obtain ⟨kept, evaluated⟩ := decimals_kept
  have nothing : Operator.sub.exact (⟨false, 150, 2⟩ : Decimal).toRat
      (⟨false, 15, 1⟩ : Decimal).toRat = (0 : ℤ) / 10 ^ max 2 1 := by
    norm_num [Operator.exact, Decimal.toRat, Decimal.magnitude, Magnitude.toRat]
  have difference := (kept ⟨false, 150, 2⟩ ⟨false, 15, 1⟩ (by decide) (by decide) (by decide)
    (by decide)).1 .sub rfl 0 nothing (by decide)
  have product := (kept ⟨false, 150, 2⟩ ⟨true, 20, 1⟩ (by decide) (by decide) (by decide)
    (by decide)).2 (by decide) (by decide)
  have first : literalMagnitude "0.50".toList = ⟨50, 2⟩ := by decide +kernel
  have second : literalMagnitude "1.5".toList = ⟨15, 1⟩ := by decide +kernel
  have wellWritten : halvesSum.WellWritten := by
    refine ⟨by decide, ?_, by decide +kernel⟩
    exact List.forall_mem_cons.mpr
      ⟨@IsDecimalLiteral.pointed ['0'] "50".toList (by decide) (by decide) (by decide),
        List.forall_mem_singleton.mpr
          (@IsDecimalLiteral.pointed ['1'] ['5'] (by decide) (by decide) (by decide))⟩
  have literalsFit : ∀ lexeme ∈ halvesSum.lexemes, (literalMagnitude lexeme).Fits :=
    List.forall_mem_cons.mpr ⟨first ▸ ⟨by decide, by decide⟩,
      List.forall_mem_singleton.mpr (second ▸ ⟨by decide, by decide⟩)⟩
  have whole : total ⟨true, "0.50".toList, [(.add, "1.5".toList)]⟩ = 1 := by
    rw [total_pair, first, second]
    norm_num [Operator.exact, Magnitude.toRat_withSign, Magnitude.toRat]
  have alone : total ⟨true, "0.50".toList, []⟩ = -1 / 2 := by
    rw [total_alone, first]
    norm_num [Magnitude.toRat_withSign, Magnitude.toRat]
  have nonzero : ∀ count < 1, (halvesSum.upTo count).total ≠ 0 := by
    intro count none
    obtain rfl := Nat.lt_one_iff.mp none
    change total ⟨true, "0.50".toList, []⟩ ≠ 0
    rw [alone]
    norm_num
  have fits : ∀ count, (halvesSum.upTo count).Fits := by
    refine forall_upTo_pair ?_ ?_
    · rw [Fits, alone, decimals_alone, first]
      norm_num [abs_of_neg]
    · rw [Fits, whole, decimals_pair, first, second]
      norm_num
  obtain ⟨value, came, same, scale⟩ := evaluated {} halvesSum wellWritten literalsFit nonzero
    fits (by decide +kernel)
  exact ⟨difference, product, value, came, same.trans whole, scale⟩

/-- One less eight, which is written with so many decimals that it does not fit. -/
def widestDifference : WrittenSum :=
  ⟨false, ['1'], [(.sub, "8.0000000000000000000000000000".toList)]⟩

open WrittenSum in
/-- A literal that does not fit as it is written gives up decimals when it is read, though the sum
would have room for them. -/
theorem not_forall_decimals_kept :
    ¬∀ (limits : Limits) (sum : WrittenSum), sum.WellWritten →
      (∀ count, (sum.upTo count).total ≠ 0 ∧ (sum.upTo count).Fits) →
      byteLength sum.text ≤ limits.maxLength →
      ∃ value, evaluate limits sum.text = .ok value ∧ value.toRat = sum.total ∧
        value.scale = sum.decimals := by
  intro claim
  have one : literalMagnitude ['1'] = ⟨1, 0⟩ := by decide +kernel
  have eight : literalMagnitude "8.0000000000000000000000000000".toList =
      ⟨80000000000000000000000000000, 28⟩ := by decide +kernel
  have wellWritten : widestDifference.WellWritten := by
    refine ⟨by decide, ?_, by decide +kernel⟩
    exact List.forall_mem_cons.mpr ⟨.whole (by decide) (by decide), List.forall_mem_singleton.mpr
      (@IsDecimalLiteral.pointed ['8'] "0000000000000000000000000000".toList
        (by decide) (by decide) (by decide))⟩
  have kept : ∀ count, (widestDifference.upTo count).total ≠ 0 ∧
      (widestDifference.upTo count).Fits := by
    refine @forall_upTo_pair (fun sum => sum.total ≠ 0 ∧ sum.Fits) _ _ _ ?_ ?_
    · rw [Fits, total_alone, decimals_alone, one]
      norm_num [Magnitude.toRat_withSign, Magnitude.toRat]
    · rw [Fits, total_pair, decimals_pair, one, eight]
      norm_num [Operator.exact, Magnitude.toRat_withSign, Magnitude.toRat, abs_of_neg]
  obtain ⟨value, came, _, scale⟩ := claim {} widestDifference wellWritten kept (by decide +kernel)
  have read : evaluate {} widestDifference.text =
      .ok ⟨true, 7000000000000000000000000000, 27⟩ := by decide +kernel
  rw [read] at came
  cases came
  exact absurd scale (by decide +kernel)

end ExactCalc
