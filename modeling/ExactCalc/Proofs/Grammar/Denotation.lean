import ExactCalc.Proofs.Grammar.Derivation

/-! What a derivation denotes, for any kind of numbers.

A term is the fold of its factors and an expression that of its terms, both from the left; a head
minus is at work on the first factor. A value that does not exist makes those around it not exist.
-/

set_option autoImplicit false

namespace ExactCalc.Grammar

/-- Numbers that literals are read as and that operators are applied to. -/
structure Semantics (α : Type) where
  literal : List Char → Option α
  negate : α → α
  apply : Operator → α → α → Option α

variable {α : Type}

def Semantics.signed (semantics : Semantics α) (negated : Bool) (a : α) : α :=
  if negated then semantics.negate a else a

def Semantics.combine (semantics : Semantics α) (op : Operator) (left right : Option α) :
    Option α :=
  left.bind fun a => right.bind fun b => semantics.apply op a b

mutual

def Factor.value (semantics : Semantics α) : Factor → Option α
  | .literal lexeme => semantics.literal lexeme
  | .group inner => inner.value semantics

def Term.value (semantics : Semantics α) (negated : Bool) : Term → Option α
  | .factor only => (only.value semantics).map (semantics.signed negated)
  | .more before op _ last =>
    semantics.combine op (before.value semantics negated) (last.value semantics)

/-- The value that a derivation denotes. -/
def Expr.value (semantics : Semantics α) : Expr → Option α
  | .first negated term => term.value semantics negated
  | .more before op _ last =>
    semantics.combine op (before.value semantics) (last.value semantics false)

end

mutual

def Factor.AllValues (semantics : Semantics α) (property : α → Prop) : Factor → Prop
  | .literal lexeme => ∀ a, semantics.literal lexeme = some a → property a
  | .group inner => inner.AllValues semantics property

def Term.AllValues (semantics : Semantics α) (property : α → Prop) (negated : Bool) : Term → Prop
  | .factor only => only.AllValues semantics property
  | .more before op _ last =>
    before.AllValues semantics property negated ∧ last.AllValues semantics property ∧
      ∀ a, semantics.combine op (before.value semantics negated) (last.value semantics) = some a →
        property a

/-- All values of literals and all results of operators, as far as they exist, have the
property. -/
def Expr.AllValues (semantics : Semantics α) (property : α → Prop) : Expr → Prop
  | .first negated term => term.AllValues semantics property negated
  | .more before op _ last =>
    before.AllValues semantics property ∧ last.AllValues semantics property false ∧
      ∀ a, semantics.combine op (before.value semantics) (last.value semantics false) = some a →
        property a

end

/-! ## What all values have -/

structure Semantics.Keeps (semantics : Semantics α) (property : α → Prop) : Prop where
  literal : ∀ lexeme a, semantics.literal lexeme = some a → property a
  negate : ∀ a, property a → property (semantics.negate a)
  apply : ∀ op a b result, property a → property b → semantics.apply op a b = some result →
    property result

section

variable {semantics : Semantics α} {property : α → Prop}

theorem Semantics.Keeps.signed (keeps : semantics.Keeps property) (negated : Bool) {a : α}
    (holds : property a) : property (semantics.signed negated a) := by
  cases negated with
  | false => exact holds
  | true => exact keeps.negate a holds

theorem Semantics.combine_eq_some_iff {op : Operator} {left right : Option α} {result : α} :
    semantics.combine op left right = some result ↔
      ∃ a b, left = some a ∧ right = some b ∧ semantics.apply op a b = some result := by
  cases left <;> cases right <;> simp [combine]

mutual

theorem Factor.value_holds (keeps : semantics.Keeps property) : ∀ (factor : Factor) {a : α},
    factor.value semantics = some a → property a
  | .literal lexeme, a, known => keeps.literal lexeme a known
  | .group inner, _, known => inner.value_holds keeps known

theorem Term.value_holds (keeps : semantics.Keeps property) (negated : Bool) :
    ∀ (term : Term) {a : α}, term.value semantics negated = some a → property a
  | .factor only, _, known => by
    obtain ⟨b, inner, rfl⟩ := Option.map_eq_some_iff.mp known
    exact keeps.signed negated (only.value_holds keeps inner)
  | .more before op _ last, _, known => by
    obtain ⟨a, b, left, right, applied⟩ := Semantics.combine_eq_some_iff.mp known
    exact keeps.apply op a b _ (before.value_holds keeps negated left)
      (last.value_holds keeps right) applied

theorem Expr.value_holds (keeps : semantics.Keeps property) : ∀ (expr : Expr) {a : α},
    expr.value semantics = some a → property a
  | .first negated term, _, known => term.value_holds keeps negated known
  | .more before op _ last, _, known => by
    obtain ⟨a, b, left, right, applied⟩ := Semantics.combine_eq_some_iff.mp known
    exact keeps.apply op a b _ (before.value_holds keeps left)
      (last.value_holds keeps false right) applied

end

end

/-! ## Decimals -/

def decimals : Semantics Decimal where
  literal lexeme := (Decimal.read lexeme).toOption
  negate := Decimal.negate
  apply op a b := (op.apply a b).toOption

/-- The operator has no result on the two values, and this is why. -/
def Refuses (op : Operator) (left right : Option Decimal) (error : EvalError) : Prop :=
  ∃ a b cause, left = some a ∧ right = some b ∧ op.apply a b = .error cause ∧
    error = .fault cause

mutual

def Factor.Raises (error : EvalError) : Factor → Prop
  | .literal lexeme =>
    ∃ cause, Decimal.read lexeme = .error cause ∧ error = .badLiteral lexeme cause
  | .group inner => inner.Raises error

def Term.Raises (error : EvalError) (negated : Bool) : Term → Prop
  | .factor only => only.Raises error
  | .more before op _ last =>
    before.Raises error negated ∨ last.Raises error ∨
      Refuses op (before.value decimals negated) (last.value decimals) error

/-- A literal of the derivation cannot be read, or an operator in it has no result on the values
of its two sides, and the error tells which. -/
def Expr.Raises (error : EvalError) : Expr → Prop
  | .first negated term => term.Raises error negated
  | .more before op _ last =>
    before.Raises error ∨ last.Raises error false ∨
      Refuses op (before.value decimals) (last.value decimals false) error

end

mutual

theorem Factor.isArithmetic_of_raises {error : EvalError} : ∀ factor : Factor,
    factor.Raises error → error.report.isArithmetic
  | .literal _, ⟨_, _, same⟩ => by
    rw [same]
    rfl
  | .group inner, raises => inner.isArithmetic_of_raises raises

theorem Term.isArithmetic_of_raises {error : EvalError} {negated : Bool} : ∀ term : Term,
    term.Raises error negated → error.report.isArithmetic
  | .factor only, raises => only.isArithmetic_of_raises raises
  | .more before _ _ last, raises => by
    rcases raises with raises | raises | ⟨_, _, _, _, _, _, rfl⟩
    · exact before.isArithmetic_of_raises raises
    · exact last.isArithmetic_of_raises raises
    · rfl

theorem Expr.isArithmetic_of_raises {error : EvalError} : ∀ expr : Expr,
    expr.Raises error → error.report.isArithmetic
  | .first _ term, raises => term.isArithmetic_of_raises raises
  | .more before _ _ last, raises => by
    rcases raises with raises | raises | ⟨_, _, _, _, _, _, rfl⟩
    · exact before.isArithmetic_of_raises raises
    · exact last.isArithmetic_of_raises raises
    · rfl

end

theorem combine_of_raises {op : Operator} {left right : Option Decimal} {error : EvalError}
    {raisesLeft raisesRight : Prop} (leftNone : raisesLeft → left = none)
    (rightNone : raisesRight → right = none)
    (raises : raisesLeft ∨ raisesRight ∨ Refuses op left right error) :
    decimals.combine op left right = none := by
  rcases raises with raises | raises | ⟨a, b, cause, rfl, rfl, failed, _⟩
  · rw [leftNone raises]
    rfl
  · rw [rightNone raises]
    cases left <;> rfl
  · simp [Semantics.combine, decimals, failed, Except.toOption]

mutual

theorem Factor.value_of_raises {error : EvalError} : ∀ factor : Factor,
    factor.Raises error → factor.value decimals = none
  | .literal lexeme, ⟨cause, failed, _⟩ => by
    simp [Factor.value, decimals, failed, Except.toOption]
  | .group inner, raises => inner.value_of_raises raises

theorem Term.value_of_raises {error : EvalError} {negated : Bool} : ∀ term : Term,
    term.Raises error negated → term.value decimals negated = none
  | .factor only, raises => by
    rw [Term.value, only.value_of_raises raises, Option.map_none]
  | .more before _ _ last, raises =>
    combine_of_raises before.value_of_raises last.value_of_raises raises

theorem Expr.value_of_raises {error : EvalError} : ∀ expr : Expr,
    expr.Raises error → expr.value decimals = none
  | .first _ term, raises => term.value_of_raises raises
  | .more before _ _ last, raises =>
    combine_of_raises before.value_of_raises last.value_of_raises raises

end

end ExactCalc.Grammar
