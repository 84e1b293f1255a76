import ExactCalc.Proofs.Token.Scanning

/-! What scanning keeps of a text: all of it.

The texts of the tokens are the text, each token stands at its byte, and a literal goes as far as
its digits and points do. Conversely symbols without two literals side by side are the ones that
their text is cut into. A text is refused at its first foreign character and at no other.
-/

set_option autoImplicit false

namespace ExactCalc

namespace Token

def IsKnown (c : Char) : Prop := c.isDigit ∨ c ∈ ".+-*/()".toList

theorem inAlphabet_iff (c : Char) : inAlphabet c = true ↔ IsKnown c := by
  have symbol : (Symbol.ofChar? c).isSome ↔ c ∈ "+-*/()".toList := by
    unfold Symbol.ofChar?
    split <;> simp_all
  simp only [inAlphabet, isLiteralChar, Bool.or_eq_true, symbol, beq_iff_eq]
  simp [IsKnown, or_assoc]

/-! ## Literals apart -/

theorem Apart.symm {first second : Symbol} (apart : Apart first second) : Apart second first := by
  cases first <;> cases second <;> trivial

theorem Apart.exists_mark {lexeme : List Char} {symbol : Symbol}
    (apart : Apart (.number lexeme) symbol) :
    ∃ mark, symbol.text = [mark] ∧ isLiteralChar mark = false := by
  rcases exists_lexeme_or_mark symbol with ⟨other, rfl⟩ | ⟨mark, written, same⟩
  · exact apart.elim
  · exact ⟨mark, written, (text_of_ofChar? same).2⟩

theorem isChain_prepend (c : Char) {written : List Symbol} (apart : written.IsChain Apart) :
    (prepend c written).IsChain Apart := by
  unfold prepend
  split
  · rename_i symbol same
    apply apart.cons
    intro next _
    cases symbol with
    | number lexeme => exact absurd rfl (ne_number_of_ofChar? same lexeme)
    | _ => trivial
  · obtain ⟨next, apart⟩ := List.isChain_cons.mp apart
    apply apart.cons
    intro symbol member
    exact (next symbol member).of_number
  · rename_i other
    apply apart.cons
    intro next member
    cases next with
    | number lexeme =>
      obtain ⟨rest, rfl⟩ := List.head?_eq_some_iff.mp member
      exact absurd rfl (other lexeme rest)
    | _ => trivial

theorem isChain_symbols (text : List Char) : (symbols text).IsChain Apart := by
  induction text with
  | nil => exact .nil
  | cons c text ih => exact isChain_prepend c ih

/-! ## Positions -/

theorem le_position_of_mem_placeFrom {position : Nat} {written : List Symbol} {token : Token}
    (member : token ∈ placeFrom position written) : position ≤ token.position := by
  induction written generalizing position with
  | nil => cases member
  | cons symbol rest ih =>
    simp only [placeFrom, List.mem_cons] at member
    rcases member with rfl | later
    · exact Nat.le_refl position
    · exact (Nat.le_add_right _ _).trans (ih later)

theorem pairwise_placeFrom (position : Nat) {written : List Symbol}
    (visible : ∀ symbol ∈ written, 0 < byteLength symbol.text) :
    (placeFrom position written).Pairwise (·.position < ·.position) := by
  induction written generalizing position with
  | nil => exact .nil
  | cons symbol rest ih =>
    obtain ⟨first, others⟩ := List.forall_mem_cons.mp visible
    simp only [placeFrom, List.pairwise_cons]
    constructor
    · intro token later
      have after := le_position_of_mem_placeFrom later
      omega
    · exact ih _ others

theorem byteLength_text_pos {symbol : Symbol}
    (lexeme : ∀ lexeme, symbol = .number lexeme → IsLexeme lexeme) :
    0 < byteLength symbol.text := by
  rcases exists_lexeme_or_mark symbol with ⟨digits, rfl⟩ | ⟨mark, written, _⟩
  · exact (lexeme digits rfl).byteLength_pos
  · rw [written]
    exact Nat.add_pos_left mark.utf8Size_pos _

theorem placeFrom_map_symbol {position : Nat} {tokens : List Token}
    (placed : ∀ before token after, tokens = before ++ token :: after →
      token.position = position + byteLength (before.flatMap (·.symbol.text))) :
    placeFrom position (tokens.map (·.symbol)) = tokens := by
  induction tokens generalizing position with
  | nil => rfl
  | cons token rest ih =>
    have first : token.position = position := placed [] token rest rfl
    have later :
        placeFrom (position + byteLength token.symbol.text) (rest.map (·.symbol)) = rest := by
      apply ih
      rintro before next after rfl
      have stands := placed (token :: before) next after rfl
      simpa [Nat.add_assoc] using stands
    rw [List.map_cons, placeFrom, later, ← first]

/-! ## Blanks between tokens -/

theorem filter_intercalate_blank (texts : List (List Char)) :
    (List.intercalate [' '] texts).filter (· != ' ') = texts.flatten.filter (· != ' ') := by
  induction texts with
  | nil => rfl
  | cons text rest ih =>
    cases rest with
    | nil => simp
    | cons next rest =>
      simp only [List.intercalate_cons_cons, List.filter_append, ih, List.flatten_cons]
      simp

theorem filter_spacedText (tokens : List Token) :
    (spacedText tokens).filter (· != ' ') =
      (tokens.flatMap (·.symbol.text)).filter (· != ' ') := by
  rw [spacedText, filter_intercalate_blank, List.flatMap_def]

/-! ## A text and its tokens -/

/-- A literal between what stands before it and after it, neither of which it could go on into. -/
structure IsMaximal (before lexeme after : List Char) : Prop where
  isLexeme : IsLexeme lexeme
  left : ∀ c ∈ before.getLast?, isLiteralChar c = false
  right : ∀ c ∈ after.head?, isLiteralChar c = false

/-- Where a token stands in a text. -/
structure StandsBetween (token : Token) (before after : List Char) : Prop where
  position : token.position = byteLength before
  maximal : ∀ lexeme, token.symbol = .number lexeme → IsMaximal before lexeme after

/-- The tokens say all that the text says, each at its place. -/
structure Covers (tokens : List Token) (text : List Char) : Prop where
  joined : tokens.flatMap (·.symbol.text) = text
  spaced : (spacedText tokens).filter (· != ' ') = text
  standing : ∀ before token after, tokens = before ++ token :: after →
    token.StandsBetween (before.flatMap (·.symbol.text)) (after.flatMap (·.symbol.text))
  increasing : tokens.Pairwise (·.position < ·.position)
  apart : tokens.IsChain fun first second => Apart first.symbol second.symbol

/-- A literal is apart from the symbols beside it, so it cannot go on into their texts. -/
theorem isMaximal_of_apart {before after : List Symbol} {lexeme : List Char}
    (isLexeme : IsLexeme lexeme) (apart : (before ++ .number lexeme :: after).IsChain Apart) :
    IsMaximal (before.flatMap Symbol.text) lexeme (after.flatMap Symbol.text) where
  isLexeme := isLexeme
  left c last := by
    have joint := (List.isChain_append.mp apart).2.2
    rcases before.eq_nil_or_concat with rfl | ⟨before, symbol, rfl⟩
    · cases last
    · rw [List.concat_eq_append] at joint last
      have beside : Apart symbol (.number lexeme) := joint symbol (by simp) _ rfl
      obtain ⟨mark, written, other⟩ := beside.symm.exists_mark
      obtain rfl : mark = c := by simpa [written] using last
      exact other
  right c first := by
    have rest := (List.isChain_append.mp apart).2.1
    cases after with
    | nil => cases first
    | cons symbol after =>
      have beside := (List.isChain_cons_cons.mp rest).1
      obtain ⟨mark, written, other⟩ := beside.exists_mark
      obtain rfl : mark = c := by simpa [written] using first
      exact other

theorem covers_of_scan {text : List Char} {tokens : List Token}
    (scanned : scan text = .ok tokens) : Covers tokens text := by
  obtain ⟨known, placed⟩ := (scan_ok_iff text tokens).mp scanned
  have written : tokens.map (·.symbol) = symbols text := by rw [placed, map_symbol_placeFrom]
  have joined : tokens.flatMap (·.symbol.text) = text := by
    simpa only [List.flatMap_map] using flatMap_text_of_scan scanned
  have apart := isChain_symbols text
  rw [← written] at apart
  constructor
  case joined => exact joined
  case spaced =>
    rw [filter_spacedText, joined, List.filter_eq_self]
    intro c member
    rw [bne_iff_ne]
    rintro rfl
    exact absurd (known ' ' member) (by decide)
  case standing =>
    rintro before token after rfl
    constructor
    · exact position_of_scan scanned
    · intro lexeme same
      simp only [List.map_append, List.map_cons, same] at apart written
      have isLexeme : IsLexeme lexeme :=
        isLexeme_of_mem_symbols known (by rw [← written]; simp)
      simpa only [List.flatMap_map] using isMaximal_of_apart isLexeme apart
  case increasing =>
    rw [placed]
    apply pairwise_placeFrom
    intro symbol member
    apply byteLength_text_pos
    rintro lexeme rfl
    exact isLexeme_of_mem_symbols known member
  case apart => exact (List.isChain_map _).mp apart

theorem Covers.scan_eq {text : List Char} {tokens : List Token} (covers : Covers tokens text) :
    scan text = .ok tokens := by
  have lexemes : ∀ lexeme, .number lexeme ∈ tokens.map (·.symbol) → IsLexeme lexeme := by
    intro lexeme member
    obtain ⟨token, inside, same⟩ := List.mem_map.mp member
    obtain ⟨before, after, split⟩ := List.append_of_mem inside
    exact ((covers.standing before token after split).maximal lexeme same).isLexeme
  have placed : placeFrom 0 (tokens.map (·.symbol)) = tokens := by
    apply placeFrom_map_symbol
    intro before token after split
    rw [Nat.zero_add]
    exact (covers.standing before token after split).position
  have scanned := scan_flatMap_text _ lexemes ((List.isChain_map _).mpr covers.apart)
  rwa [List.flatMap_map, covers.joined, placed] at scanned

/-- A text over the alphabet is cut into the tokens that say all it says, and every other text is
refused at its first foreign character. Each sequence of symbols without two literals side by side
is what its text is cut into. -/
theorem scan_lossless :
    (∀ text : List Char,
      ((∃ tokens, scan text = .ok tokens) ↔ ∀ c ∈ text, IsKnown c) ∧
      (∀ tokens, scan text = .ok tokens ↔ Covers tokens text) ∧
      ((¬∀ c ∈ text, IsKnown c) → ∃ before foreign after error,
        text = before ++ foreign :: after ∧ (∀ c ∈ before, IsKnown c) ∧ ¬IsKnown foreign ∧
        scan text = .error error ∧ error.report =
          .malformed s!"caractère inattendu: '{foreign}'" (some (byteLength before)))) ∧
    ∀ written : List Symbol, (∀ lexeme, .number lexeme ∈ written → IsLexeme lexeme) →
      written.IsChain Apart →
      ∃ tokens, scan (written.flatMap Symbol.text) = .ok tokens ∧
        tokens.map (·.symbol) = written := by
  constructor
  · intro text
    refine ⟨?_, fun tokens => ⟨covers_of_scan, Covers.scan_eq⟩, fun unknown => ?_⟩
    · simp only [scan_ok_iff, ← inAlphabet_iff]
      exact ⟨fun ⟨_, known, _⟩ => known, fun known => ⟨_, known, rfl⟩⟩
    · simp only [← inAlphabet_iff] at unknown ⊢
      obtain ⟨before, foreign, after, rfl, known, other⟩ := exists_foreign unknown
      have refused := scan_of_foreign known other after
      exact ⟨before, foreign, after, _, rfl, known, by simp [other], refused, rfl⟩
  · intro written lexemes apart
    have scanned := scan_flatMap_text written lexemes apart
    exact ⟨_, scanned, map_symbol_placeFrom 0 written⟩

theorem scan_lossless_quotient :
    scan "12/.5".toList =
        .ok [⟨.number "12".toList, 0⟩, ⟨.operator .div, 2⟩, ⟨.number ".5".toList, 3⟩] ∧
      Covers [⟨.number "12".toList, 0⟩, ⟨.operator .div, 2⟩, ⟨.number ".5".toList, 3⟩]
        "12/.5".toList := by
  have scanned : scan "12/.5".toList =
      .ok [⟨.number "12".toList, 0⟩, ⟨.operator .div, 2⟩, ⟨.number ".5".toList, 3⟩] := by decide
  exact ⟨scanned, ((scan_lossless.1 _).2.1 _).mp scanned⟩

end Token

end ExactCalc
