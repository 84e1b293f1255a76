import ExactCalc.Text.Blank
import ExactCalc.Proofs.Token.Scanning

/-! Cutting blanks off the ends of a text.

However many blanks stand around a text, the same is left of it. No blank is of the alphabet that
expressions are written in, so that one inside a text is found there.
-/

set_option autoImplicit false

namespace ExactCalc

theorem trimBlanks_of_blank {text : List Char} (blank : ∀ c ∈ text, isBlank c) :
    trimBlanks text = [] := by
  rw [trimBlanks, List.dropWhile_eq_nil_iff.mpr blank]
  rfl

/-- Blanks around a text are cut off with the blanks at its own ends. -/
theorem trimBlanks_append {before after : List Char} (left : ∀ c ∈ before, isBlank c)
    (right : ∀ c ∈ after, isBlank c) (text : List Char) :
    trimBlanks (before ++ text ++ after) = trimBlanks text := by
  by_cases blank : ∀ c ∈ text, isBlank c
  · have whole : ∀ c ∈ before ++ text ++ after, isBlank c :=
      List.forall_mem_append.mpr ⟨List.forall_mem_append.mpr ⟨left, blank⟩, right⟩
    rw [trimBlanks_of_blank whole, trimBlanks_of_blank blank]
  · -- what is left of the text from the left is in front of the blanks after it
    have some : (text.dropWhile isBlank).isEmpty = false := by
      rw [List.isEmpty_eq_false_iff]
      exact mt List.dropWhile_eq_nil_iff.mp blank
    have behind : ∀ c ∈ after.reverse, isBlank c := fun c member =>
      right c (List.mem_reverse.mp member)
    rw [trimBlanks, trimBlanks, List.append_assoc, List.dropWhile_append_of_pos left,
      List.dropWhile_append, some, if_neg Bool.false_ne_true, List.reverse_append,
      List.dropWhile_append_of_pos behind]

theorem Token.inAlphabet_of_blank {c : Char} (blank : isBlank c) : inAlphabet c = false := by
  rw [← Bool.not_eq_true]
  intro known
  cases literal : isLiteralChar c with
  | true =>
    rcases Bool.or_eq_true_iff.mp literal with digit | point
    · have least : 48 ≤ c.toNat := (Char.isDigit_iff_toNat.mp digit).1
      have most : c.toNat ≤ 57 := (Char.isDigit_iff_toNat.mp digit).2
      simp only [isBlank, blankRanges, List.any_cons, List.any_nil, Bool.or_eq_true,
        Bool.and_eq_true, decide_eq_true_eq, Bool.false_eq_true, or_false] at blank
      omega
    · rw [eq_of_beq point] at blank
      cases blank
  | false =>
    obtain ⟨symbol, same⟩ := exists_ofChar? known literal
    unfold Symbol.ofChar? at same
    split at same
    case h_7 => cases same
    all_goals cases blank

end ExactCalc
