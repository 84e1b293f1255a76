import ExactCalc.Token.Scan
import Mathlib.Data.List.Chain
import Mathlib.Data.List.TakeWhile

/-! Scanning and writing out are inverse: a text is what its symbols are written with, and symbols
are what their text is scanned into, as long as no two literals touch. -/

set_option autoImplicit false

namespace ExactCalc

namespace Token

def IsLexeme (lexeme : List Char) : Prop :=
  lexeme ≠ [] ∧ ∀ c ∈ lexeme, isLiteralChar c = true

instance (lexeme : List Char) : Decidable (IsLexeme lexeme) :=
  @instDecidableAnd _ _ _ (List.decidableBAll (fun c => isLiteralChar c = true) lexeme)

theorem text_of_ofChar? {c : Char} {symbol : Symbol} (same : Symbol.ofChar? c = some symbol) :
    symbol.text = [c] ∧ isLiteralChar c = false := by
  unfold Symbol.ofChar? at same
  split at same
  case h_7 => cases same
  all_goals
    cases same
    exact ⟨rfl, by decide⟩

theorem exists_lexeme_or_mark (symbol : Symbol) :
    (∃ lexeme, symbol = .number lexeme) ∨
      ∃ mark, symbol.text = [mark] ∧ Symbol.ofChar? mark = some symbol := by
  cases symbol with
  | number lexeme => exact .inl ⟨lexeme, rfl⟩
  | operator op => exact .inr ⟨op.symbol, rfl, by cases op <;> rfl⟩
  | opening => exact .inr ⟨'(', rfl, rfl⟩
  | closing => exact .inr ⟨')', rfl, rfl⟩

theorem ofChar?_of_isLiteralChar {c : Char} (literal : isLiteralChar c = true) :
    Symbol.ofChar? c = none := by
  cases same : Symbol.ofChar? c with
  | none => rfl
  | some symbol =>
    rw [(text_of_ofChar? same).2] at literal
    cases literal

/-! ## From a text to its symbols and back -/

@[simp] theorem symbols_nil : symbols [] = [] := rfl

@[simp] theorem symbols_cons (c : Char) (text : List Char) :
    symbols (c :: text) = prepend c (symbols text) := rfl

theorem ne_number_of_ofChar? {c : Char} {symbol : Symbol}
    (same : Symbol.ofChar? c = some symbol) (lexeme : List Char) : symbol ≠ .number lexeme := by
  rintro rfl
  have text := (text_of_ofChar? same).1
  obtain rfl : lexeme = [c] := text
  revert same
  unfold Symbol.ofChar?
  split <;> nofun

theorem prepend_append_of_ofChar? {mark : Char} {symbol : Symbol}
    (same : Symbol.ofChar? mark = some symbol) (c : Char) (first rest : List Symbol) :
    prepend c (first ++ symbol :: rest) = prepend c first ++ symbol :: rest := by
  cases first with
  | nil =>
    have plain := ne_number_of_ofChar? same
    unfold prepend
    split <;> simp_all
  | cons other first =>
    unfold prepend
    split <;> simp_all

/-- A text is cut at each character that is a symbol by itself. -/
theorem symbols_append_cons {mark : Char} {symbol : Symbol}
    (same : Symbol.ofChar? mark = some symbol) (text rest : List Char) :
    symbols (text ++ mark :: rest) = symbols text ++ symbol :: symbols rest := by
  induction text with
  | nil => simp [prepend, same]
  | cons c text ih => simp [ih, prepend_append_of_ofChar? same]

theorem flatMap_text_prepend (c : Char) (rest : List Symbol) :
    (prepend c rest).flatMap Symbol.text = c :: rest.flatMap Symbol.text := by
  unfold prepend
  split
  · rename_i symbol same
    simp [(text_of_ofChar? same).1]
  · simp [Symbol.text]
  · simp [Symbol.text]

theorem flatMap_text_symbols (text : List Char) :
    (symbols text).flatMap Symbol.text = text := by
  induction text with
  | nil => rfl
  | cons c text ih => rw [symbols_cons, flatMap_text_prepend, ih]

/-! ## From symbols to their text and back -/

def Apart : Symbol → Symbol → Prop
  | .number _, .number _ => False
  | _, _ => True

theorem Apart.of_number {lexeme other : List Char} {next : Symbol}
    (apart : Apart (.number lexeme) next) : Apart (.number other) next := by
  cases next with
  | number _ => exact apart.elim
  | _ => trivial

theorem prepend_number {c : Char} (literal : isLiteralChar c = true) (lexeme : List Char)
    (rest : List Symbol) :
    prepend c (.number lexeme :: rest) = .number (c :: lexeme) :: rest := by
  simp only [prepend, ofChar?_of_isLiteralChar literal]

theorem prepend_apart {c : Char} (literal : isLiteralChar c = true) (rest : List Symbol)
    (apart : ∀ next ∈ rest.head?, Apart (.number [c]) next) :
    prepend c rest = .number [c] :: rest := by
  cases rest with
  | nil => simp only [prepend, ofChar?_of_isLiteralChar literal]
  | cons next rest =>
    cases next with
    | number lexeme => exact (apart (.number lexeme) rfl).elim
    | _ => simp only [prepend, ofChar?_of_isLiteralChar literal]

theorem symbols_lexeme_append {lexeme : List Char} (isLexeme : IsLexeme lexeme)
    (text : List Char) (apart : ∀ next ∈ (symbols text).head?, Apart (.number lexeme) next) :
    symbols (lexeme ++ text) = .number lexeme :: symbols text := by
  obtain ⟨some, literal⟩ := isLexeme
  -- from the right: the last character begins a literal, each one before it joins in
  induction lexeme with
  | nil => exact absurd rfl some
  | cons c lexeme ih =>
    obtain ⟨first, others⟩ := List.forall_mem_cons.mp literal
    rw [List.cons_append, symbols_cons]
    cases lexeme with
    | nil => exact prepend_apart first _ apart
    | cons d lexeme =>
      rw [ih (fun next member => (apart next member).of_number) (List.cons_ne_nil _ _) others]
      exact prepend_number first _ _

theorem symbols_lexeme {lexeme : List Char} (isLexeme : IsLexeme lexeme) :
    symbols lexeme = [.number lexeme] := by
  have whole := symbols_lexeme_append isLexeme [] nofun
  rwa [List.append_nil] at whole

theorem symbols_operator (op : Operator) (text : List Char) :
    symbols (op.symbol :: text) = .operator op :: symbols text := by
  cases op <;> rfl

theorem symbols_flatMap_text (written : List Symbol)
    (lexemes : ∀ lexeme, .number lexeme ∈ written → IsLexeme lexeme)
    (apart : written.IsChain Apart) : symbols (written.flatMap Symbol.text) = written := by
  induction written with
  | nil => rfl
  | cons symbol rest ih =>
    -- the symbols after this one are scanned back, and the next of them is apart from it
    obtain ⟨next, apart⟩ := List.isChain_cons.mp apart
    have tail := ih (fun lexeme member => lexemes lexeme (List.mem_cons_of_mem _ member)) apart
    rw [List.flatMap_cons]
    rcases exists_lexeme_or_mark symbol with ⟨lexeme, rfl⟩ | ⟨mark, written, same⟩
    · have isLexeme := lexemes lexeme List.mem_cons_self
      rw [Symbol.text, symbols_lexeme_append isLexeme _ (by rw [tail]; exact next), tail]
    · simp only [written, List.singleton_append, symbols_cons, prepend, same, tail]

/-! ## The alphabet -/

theorem IsLexeme.inAlphabet {lexeme : List Char} (isLexeme : IsLexeme lexeme) :
    ∀ c ∈ lexeme, inAlphabet c = true := by
  intro c member
  rw [Token.inAlphabet, isLexeme.2 c member, Bool.true_or]

theorem IsLexeme.byteLength_pos {lexeme : List Char} (isLexeme : IsLexeme lexeme) :
    0 < byteLength lexeme := by
  obtain ⟨c, rest, rfl⟩ := List.exists_cons_of_ne_nil isLexeme.1
  exact Nat.add_pos_left c.utf8Size_pos _

theorem exists_ofChar? {c : Char} (known : inAlphabet c = true)
    (notLiteral : isLiteralChar c = false) : ∃ symbol, Symbol.ofChar? c = some symbol := by
  rw [inAlphabet, notLiteral, Bool.false_or] at known
  exact Option.isSome_iff_exists.mp known

theorem utf8Size_of_inAlphabet {c : Char} (known : inAlphabet c = true) : c.utf8Size = 1 := by
  cases literal : isLiteralChar c with
  | false =>
    obtain ⟨symbol, same⟩ := exists_ofChar? known literal
    unfold Symbol.ofChar? at same
    split at same
    case h_7 => cases same
    all_goals rfl
  | true =>
    rcases Bool.or_eq_true_iff.mp literal with digit | point
    · have below : c.toNat ≤ 57 := (Char.isDigit_iff_toNat.mp digit).2
      exact Char.utf8Size_eq_one_iff.mpr (UInt32.le_iff_toNat_le.mpr (below.trans (by decide)))
    · rw [eq_of_beq point]
      rfl

theorem byteLength_eq_length {text : List Char} (known : ∀ c ∈ text, inAlphabet c = true) :
    byteLength text = text.length := by
  induction text with
  | nil => rfl
  | cons c rest ih =>
    obtain ⟨first, rest⟩ := List.forall_mem_cons.mp known
    rw [byteLength_cons, utf8Size_of_inAlphabet first, ih rest, List.length_cons, Nat.add_comm]

/-- A text over the alphabet is cut before a character that is not of a literal. -/
theorem symbols_append_of_head {after : List Char} (known : ∀ c ∈ after, inAlphabet c = true)
    (right : ∀ c ∈ after.head?, isLiteralChar c = false) (before : List Char) :
    symbols (before ++ after) = symbols before ++ symbols after := by
  cases after with
  | nil => simp
  | cons mark after =>
    obtain ⟨symbol, same⟩ := exists_ofChar? (known mark List.mem_cons_self) (right mark rfl)
    rw [symbols_append_cons same, symbols_cons]
    simp only [prepend, same]

theorem symbols_append_of_getLast {before : List Char} (known : ∀ c ∈ before, inAlphabet c = true)
    (left : ∀ c ∈ before.getLast?, isLiteralChar c = false) (after : List Char) :
    symbols (before ++ after) = symbols before ++ symbols after := by
  rcases before.eq_nil_or_concat with rfl | ⟨before, mark, rfl⟩
  · rfl
  · rw [List.concat_eq_append] at known left ⊢
    obtain ⟨symbol, same⟩ := exists_ofChar? (known mark (by simp)) (left mark (by simp))
    rw [List.append_assoc, List.singleton_append, symbols_append_cons same,
      symbols_append_cons same, symbols_nil, List.append_assoc, List.singleton_append]

theorem inAlphabet_of_mem_text {symbol : Symbol}
    (lexeme : ∀ lexeme, symbol = .number lexeme → IsLexeme lexeme) {c : Char}
    (member : c ∈ symbol.text) : inAlphabet c = true := by
  rcases exists_lexeme_or_mark symbol with ⟨digits, rfl⟩ | ⟨mark, written, same⟩
  · exact (lexeme digits rfl).inAlphabet c member
  · rw [written, List.mem_singleton] at member
    simp [member, inAlphabet, same]

theorem inAlphabet_of_mem_flatMap {written : List Symbol}
    (lexemes : ∀ lexeme, .number lexeme ∈ written → IsLexeme lexeme) {c : Char}
    (member : c ∈ written.flatMap Symbol.text) : inAlphabet c = true := by
  obtain ⟨symbol, inside, member⟩ := List.mem_flatMap.mp member
  refine inAlphabet_of_mem_text (fun lexeme same => ?_) member
  exact lexemes lexeme (same ▸ inside)

theorem isLexeme_of_mem_symbols {text : List Char} (known : ∀ c ∈ text, inAlphabet c = true)
    {lexeme : List Char} (member : .number lexeme ∈ symbols text) : IsLexeme lexeme := by
  induction text generalizing lexeme with
  | nil => cases member
  | cons c text ih =>
    obtain ⟨first, rest⟩ := List.forall_mem_cons.mp known
    have literal (none : Symbol.ofChar? c = none) : isLiteralChar c = true := by
      simpa [inAlphabet, none] using first
    rw [symbols_cons] at member
    unfold prepend at member
    split at member
    · rename_i symbol same
      rcases List.mem_cons.mp member with number | later
      · exact absurd number.symm (ne_number_of_ofChar? same lexeme)
      · exact ih rest later
    · rename_i digits others none tail
      rw [tail] at ih
      rcases List.mem_cons.mp member with number | later
      · -- the character joins the literal behind it
        obtain rfl := Symbol.number.inj number
        have joined : IsLexeme digits := ih rest List.mem_cons_self
        exact ⟨List.cons_ne_nil _ _, List.forall_mem_cons.mpr ⟨literal none, joined.2⟩⟩
      · exact ih rest (List.mem_cons_of_mem _ later)
    · rename_i none _
      rcases List.mem_cons.mp member with number | later
      · obtain rfl := Symbol.number.inj number
        exact ⟨List.cons_ne_nil _ _, List.forall_mem_singleton.mpr (literal none)⟩
      · exact ih rest later

/-! ## Positions -/

@[simp] theorem map_symbol_placeFrom (position : Nat) (written : List Symbol) :
    (placeFrom position written).map (·.symbol) = written := by
  induction written generalizing position with
  | nil => rfl
  | cons symbol rest ih => rw [placeFrom, List.map_cons, ih]

@[simp] theorem length_placeFrom (position : Nat) (written : List Symbol) :
    (placeFrom position written).length = written.length := by
  rw [← List.length_map (·.symbol), map_symbol_placeFrom]

theorem placeFrom_append (position : Nat) (first rest : List Symbol) :
    placeFrom position (first ++ rest) = placeFrom position first ++
      placeFrom (position + byteLength (first.flatMap Symbol.text)) rest := by
  induction first generalizing position with
  | nil => rfl
  | cons symbol first ih =>
    simp only [List.cons_append, placeFrom, ih, List.flatMap_cons, byteLength_append,
      Nat.add_assoc]

/-! ## Scanning -/

theorem scan_ok_iff (text : List Char) (tokens : List Token) :
    scan text = .ok tokens ↔
      (∀ c ∈ text, inAlphabet c = true) ∧ tokens = placeFrom 0 (symbols text) := by
  unfold scan
  split
  · rename_i whole
    have all := List.dropWhile_eq_nil_iff.mp whole
    exact ⟨fun same => ⟨all, (Except.ok.inj same).symm⟩, fun ⟨_, same⟩ => congrArg _ same.symm⟩
  · rename_i foreign rest some
    constructor
    · intro same
      cases same
    · rintro ⟨all, _⟩
      rw [List.dropWhile_eq_nil_iff.mpr all] at some
      cases some

/-- The first foreign character is the one refused, where it stands. -/
theorem scan_eq_error_iff (text : List Char) (cause : EvalError) :
    scan text = .error cause ↔
      ∃ before foreign after, text = before ++ foreign :: after ∧
        (∀ c ∈ before, inAlphabet c = true) ∧ inAlphabet foreign = false ∧
        cause = .unexpectedCharacter foreign (byteLength before) := by
  unfold scan
  constructor
  · intro refused
    split at refused
    · cases refused
    · rename_i foreign rest found
      have first := List.head_dropWhile_not inAlphabet (l := text) (by rw [found]; simp)
      simp only [found, List.head_cons] at first
      have split := List.takeWhile_append_dropWhile (p := inAlphabet) (l := text)
      rw [found] at split
      exact ⟨text.takeWhile inAlphabet, foreign, rest, split.symm,
        fun c member => List.mem_takeWhile_imp member, first, (Except.error.inj refused).symm⟩
  · rintro ⟨before, foreign, after, rfl, known, unknown, rfl⟩
    have rest : (before ++ foreign :: after).dropWhile inAlphabet = foreign :: after := by
      rw [List.dropWhile_append_of_pos known]
      simp [unknown]
    have first : (before ++ foreign :: after).takeWhile inAlphabet = before := by
      rw [List.takeWhile_append_of_pos known]
      simp [unknown]
    rw [rest, first]

theorem exists_foreign {text : List Char} (unknown : ¬∀ c ∈ text, inAlphabet c = true) :
    ∃ before foreign after, text = before ++ foreign :: after ∧
      (∀ c ∈ before, inAlphabet c = true) ∧ inAlphabet foreign = false := by
  cases scanned : scan text with
  | ok tokens => exact absurd ((scan_ok_iff _ _).mp scanned).1 unknown
  | error cause =>
    obtain ⟨before, foreign, after, same, known, first, _⟩ := (scan_eq_error_iff _ _).mp scanned
    exact ⟨before, foreign, after, same, known, first⟩

theorem scan_of_foreign {before : List Char} {foreign : Char}
    (known : ∀ c ∈ before, inAlphabet c = true) (unknown : inAlphabet foreign = false)
    (after : List Char) :
    scan (before ++ foreign :: after) =
      .error (.unexpectedCharacter foreign (byteLength before)) :=
  (scan_eq_error_iff _ _).mpr ⟨before, foreign, after, rfl, known, unknown, rfl⟩

theorem flatMap_text_of_scan {text : List Char} {tokens : List Token}
    (scanned : scan text = .ok tokens) :
    (tokens.map (·.symbol)).flatMap Symbol.text = text := by
  rw [((scan_ok_iff text tokens).mp scanned).2, map_symbol_placeFrom, flatMap_text_symbols]

/-- What symbols are written with is scanned into them, laid side by side. -/
theorem scan_flatMap_text (written : List Symbol)
    (lexemes : ∀ lexeme, .number lexeme ∈ written → IsLexeme lexeme)
    (apart : written.IsChain Apart) :
    scan (written.flatMap Symbol.text) = .ok (placeFrom 0 written) :=
  (scan_ok_iff _ _).mpr ⟨fun _ member => inAlphabet_of_mem_flatMap lexemes member, by
    rw [symbols_flatMap_text written lexemes apart]⟩

/-- A token stands at the byte where what is written before it ends. -/
theorem position_of_scan {text : List Char} {before after : List Token} {token : Token}
    (scanned : scan text = .ok (before ++ token :: after)) :
    token.position = byteLength (before.flatMap (·.symbol.text)) := by
  obtain ⟨_, placed⟩ := (scan_ok_iff text _).mp scanned
  have symbols := congrArg (List.map (·.symbol)) placed
  rw [map_symbol_placeFrom, List.map_append] at symbols
  rw [← symbols, placeFrom_append, Nat.zero_add] at placed
  obtain ⟨_, rest⟩ := List.append_inj placed (by simp)
  rw [(List.cons.inj rest).1, List.flatMap_map]

end Token

end ExactCalc
