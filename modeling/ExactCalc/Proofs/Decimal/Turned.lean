import ExactCalc.Operator
import ExactCalc.Proofs.Decimal.Value

/-! The sign of a first operand.

A product and a quotient are found by their magnitudes alone, so turning the sign of one operand
turns that of the result and nothing else. A sum and a difference ask an operand for its sign only
if it is not zero. So the sign that a zero has is never seen again.
-/

set_option autoImplicit false

namespace ExactCalc

namespace Decimal

/-- Two decimals of the same magnitude, and of opposite signs if `turned`. The sign of a zero is
left aside. -/
structure Turned (turned : Bool) (a b : Decimal) : Prop where
  magnitude : a.magnitude = b.magnitude
  sign : ¬a.isZero → a.negative = (b.negative ^^ turned)

variable {turned : Bool} {a b : Decimal}

theorem Turned.refl (a : Decimal) : Turned false a a := ⟨rfl, fun _ => (Bool.xor_false _).symm⟩

theorem Turned.isZero_eq (same : Turned turned a b) : a.isZero = b.isZero :=
  congrArg (fun m : Magnitude => m.mantissa == 0) same.magnitude

theorem Turned.of_both {c : Decimal} (first : Turned turned a c) (second : Turned turned b c) :
    Turned false a b := by
  refine ⟨first.magnitude.trans second.magnitude.symm, fun nonzero => ?_⟩
  have other : ¬b.isZero := by rwa [second.isZero_eq, ← first.isZero_eq]
  rw [first.sign nonzero, second.sign other, Bool.xor_false]

theorem rel_turned_of_both {first second third : Option Decimal}
    (left : Option.Rel (Turned turned) first third)
    (right : Option.Rel (Turned turned) second third) :
    Option.Rel (Turned false) first second := by
  cases left with
  | none =>
    cases right
    exact .none
  | some left =>
    cases right with
    | some right => exact .some (left.of_both right)

theorem Turned.eq_of_nonzero (same : Turned false a b) (nonzero : ¬a.isZero) : a = b := by
  obtain ⟨negative, mantissa, scale⟩ := a
  obtain ⟨other, _, _⟩ := b
  obtain ⟨rfl, rfl⟩ := Magnitude.mk.inj same.magnitude
  obtain rfl : negative = other := (same.sign nonzero).trans (Bool.xor_false _)
  rfl

theorem Turned.toRat_eq (same : Turned false a b) : a.toRat = b.toRat := by
  by_cases zero : a.isZero
  · rw [toRat_of_isZero zero, toRat_of_isZero (same.isZero_eq ▸ zero)]
  · rw [same.eq_of_nonzero zero]

theorem negate_turned (d : Decimal) : Turned true d.negate d :=
  ⟨rfl, fun nonzero => by
    have kept : ¬d.isZero := nonzero
    simp [negate, kept]⟩

theorem opposite_turned (d : Decimal) : Turned true d.opposite d :=
  ⟨rfl, fun nonzero => by
    have kept : ¬d.isZero := nonzero
    simp [opposite, kept]⟩

theorem withSign_turned (m : Magnitude) {first second : Bool}
    (opposed : first = (second ^^ turned)) :
    Turned turned (m.withSign first) (m.withSign second) :=
  ⟨rfl, fun _ => opposed⟩

theorem signed_turned (m : Magnitude) {first second : Bool}
    (opposed : first = (second ^^ turned)) :
    Turned turned (m.signed first) (m.signed second) :=
  ⟨rfl, fun nonzero => by
    have kept : (m.mantissa != 0) = true := by simpa [isZero, Magnitude.signed] using nonzero
    simp only [Magnitude.signed, kept, Bool.and_true, opposed]⟩

theorem map_turned {β : Type} {f g : β → Decimal} (each : ∀ item, Turned turned (f item) (g item))
    (found : Option β) : Option.Rel (Turned turned) (found.map f) (found.map g) := by
  cases found with
  | none => exact .none
  | some item => exact .some (each item)

theorem Turned.mul (same : Turned turned a b) (c : Decimal) :
    Option.Rel (Turned turned) (a.mul? c) (b.mul? c) := by
  obtain ⟨mantissa, scale⟩ := Magnitude.mk.inj same.magnitude
  have zero : Turned turned zero zero := ⟨rfl, nofun⟩
  unfold mul?
  rw [← same.isZero_eq, ← mantissa, ← scale]
  split
  · exact .some zero
  rename_i nonzero
  have opposed : (a.negative ^^ c.negative) = ((b.negative ^^ c.negative) ^^ turned) := by
    rw [same.sign (fun isZero => nonzero (by simp [isZero])), Bool.xor_right_comm]
  dsimp only
  split
  · split
    · exact .some zero
    · exact map_turned (fun m => signed_turned m opposed) _
  · exact map_turned (fun m => withSign_turned m opposed) _

theorem Turned.div (same : Turned turned a b) (c : Decimal) :
    Option.Rel (Turned turned) (a.div? c) (b.div? c) := by
  obtain ⟨mantissa, scale⟩ := Magnitude.mk.inj same.magnitude
  have start : a.startDivision c = b.startDivision c := by
    rw [startDivision, startDivision, mantissa, scale]
  unfold div?
  rw [← same.isZero_eq, start]
  split
  · exact .none
  split
  · exact .some ⟨rfl, nofun⟩
  rename_i nonzero
  have opposed : (a.negative ^^ c.negative) = ((b.negative ^^ c.negative) ^^ turned) := by
    rw [same.sign nonzero, Bool.xor_right_comm]
  exact map_turned (fun _ => signed_turned _ opposed) _

theorem Turned.add (same : Turned false a b) (c : Decimal) :
    Option.Rel (Turned false) (a.add? c) (b.add? c) := by
  by_cases zero : a.isZero
  · have other : b.isZero := same.isZero_eq ▸ zero
    rw [add?, add?, if_pos zero, if_pos other]
    exact .some (.refl c)
  · rw [same.eq_of_nonzero zero]
    cases b.add? c with
    | none => exact .none
    | some sum => exact .some (.refl sum)

end Decimal

/-- An operator does the same with two first operands that differ in sign: products and quotients
always, sums and differences if the difference is but in the sign of a zero. -/
theorem Operator.apply_turned {turned : Bool} {a b : Decimal} (same : Decimal.Turned turned a b)
    (op : Operator) (allowed : turned = true → op.isMultiplicative = true) (c : Decimal) :
    Option.Rel (Decimal.Turned turned) (op.apply a c).toOption (op.apply b c).toOption := by
  have computed : Option.Rel (Decimal.Turned turned) (op.compute? a c) (op.compute? b c) := by
    have additive (loose : op.isMultiplicative = false) : turned = false := by
      rw [loose] at allowed
      exact Bool.eq_false_iff.mpr fun opposed => nomatch allowed opposed
    cases op with
    | add =>
      obtain rfl := additive rfl
      exact same.add c
    | sub =>
      obtain rfl := additive rfl
      exact same.add c.opposite
    | mul => exact same.mul c
    | div => exact same.div c
  unfold Operator.apply
  split
  · exact .none
  · generalize op.compute? a c = first at computed ⊢
    generalize op.compute? b c = second at computed ⊢
    cases computed with
    | none => exact .none
    | some results => exact .some results

end ExactCalc
