import ExactCalc.Proofs.Chain.Sentences

/-! Beginnings of sentences, and the token at which the parser stops.

From every state the parser can be brought to the end of a sentence: by an operand where it waits
for one, then by a closing parenthesis for each chain around the current one. And it reads all
beginnings of sentences, as parts of them. So the first token it refuses is the first with which no
sentence goes on.
-/

set_option autoImplicit false

namespace ExactCalc

def BeginsSentence (symbols : List Symbol) : Prop := ∃ rest, IsSentence (symbols ++ rest)

theorem BeginsSentence.left {first rest : List Symbol} (begins : BeginsSentence (first ++ rest)) :
    BeginsSentence first := by
  obtain ⟨more, sentence⟩ := begins
  exact ⟨rest ++ more, by rwa [← List.append_assoc]⟩

namespace Parser

/-! ## What has been read begins a sentence -/

theorem HasRead.beginsSentence_of_operator {tokens : List Token} {current : Draft}
    {enclosing : List Draft} (hasRead : HasRead tokens ⟨current, enclosing, .operator⟩) :
    BeginsSentence (tokens.map (·.symbol)) := by
  -- by the chains around the current one, each of which takes a closing parenthesis
  induction enclosing generalizing tokens current with
  | nil =>
    have finished : finish ⟨current, [], .operator⟩ 0 = .ok current.chain := rfl
    obtain ⟨wellFormed, spells⟩ := spells_of_finish hasRead finished
    refine ⟨[], ?_⟩
    rw [List.append_nil, spells.symbols]
    exact Chain.isSentence_symbols _ wellFormed
  | cons outer enclosing ih =>
    have closes : Reads ⟨current, outer :: enclosing, .operator⟩ ⟨.closing, 0⟩ _ :=
      .closing outer enclosing rfl rfl rfl
    have closed := ih (hasRead.step closes)
    rw [List.map_append] at closed
    exact closed.left

theorem HasRead.beginsSentence {tokens : List Token} {parser : Parser}
    (hasRead : HasRead tokens parser) : BeginsSentence (tokens.map (·.symbol)) := by
  by_cases expects : parser.expects = .operator
  · obtain ⟨current, enclosing, stage⟩ := parser
    cases expects
    exact hasRead.beginsSentence_of_operator
  · have reads : parser.Reads ⟨.number ['0'], 0⟩ _ := .number ['0'] rfl expects
    have read := hasRead.step reads
    have begins := read.beginsSentence_of_operator
    rw [List.map_append] at begins
    exact begins.left

/-! ## Beginnings of sentences are read -/

theorem run_of_isSentence {tokens : List Token} (sentence : IsSentence (tokens.map (·.symbol))) :
    ∃ current, tokens.foldlM step {} = .ok ⟨current, [], .operator⟩ := by
  obtain ⟨chain, wellFormed, spells⟩ := sentence.hasTree tokens rfl
  exact ⟨_, run_chain chain wellFormed
    (fun member inside => member.takesIn (wellFormed.operand inside)) tokens [] spells⟩

theorem run_ok_iff_beginsSentence (tokens : List Token) :
    (∃ parser, tokens.foldlM step {} = .ok parser) ↔
      BeginsSentence (tokens.map (·.symbol)) := by
  constructor
  · exact fun ⟨parser, run⟩ => (HasRead.run run).beginsSentence
  · rintro ⟨rest, sentence⟩
    let more : List Token := rest.map fun symbol => ⟨symbol, 0⟩
    have whole : IsSentence ((tokens ++ more).map (·.symbol)) := by
      simpa [more, Function.comp_def] using sentence
    obtain ⟨current, run⟩ := run_of_isSentence whole
    rw [List.foldlM_append] at run
    obtain ⟨parser, first, _⟩ := Except.bind_eq_ok_iff.mp run
    exact ⟨parser, first⟩

/-! ## Refusals -/

theorem step_eq_error {parser : Parser} {token : Token} {cause : EvalError}
    (refused : parser.step token = .error cause) :
    cause = .misplaced token.position ∨
      cause = .unbalanced token.position ∧ token.symbol = .closing ∧ parser.enclosing = [] := by
  obtain ⟨current, enclosing, stage⟩ := parser
  obtain ⟨symbol, position⟩ := token
  cases stage with
  | chain =>
    cases symbol with
    | operator op => cases op <;> cases refused <;> exact .inl rfl
    | _ => cases refused <;> exact .inl rfl
  | operand =>
    cases symbol with
    | operator op => cases op <;> cases refused <;> exact .inl rfl
    | _ => cases refused <;> exact .inl rfl
  | operator =>
    cases symbol with
    | operator op => cases op <;> nomatch refused
    | closing =>
      cases enclosing with
      | nil => cases refused; exact .inr ⟨rfl, rfl, rfl⟩
      | cons outer enclosing => cases refused
    | _ => cases refused; exact .inl rfl

theorem finish_eq_error {parser : Parser} {endPosition : Nat} {cause : EvalError}
    (refused : parser.finish endPosition = .error cause) :
    cause = .misplaced endPosition ∨
      cause = .unbalanced endPosition ∧ parser.enclosing ≠ [] := by
  obtain ⟨current, enclosing, stage⟩ := parser
  cases stage with
  | chain => cases refused; exact .inl rfl
  | operand => cases refused; exact .inl rfl
  | operator =>
    cases enclosing with
    | nil => cases refused
    | cons outer enclosing => cases refused; exact .inr ⟨rfl, nofun⟩

/-- As many chains are around the current one as parentheses are open. -/
theorem length_enclosing {tokens : List Token} {parser : Parser}
    (run : tokens.foldlM step {} = .ok parser) :
    (parser.enclosing.length : Int) = Symbol.rise (tokens.map (·.symbol)) := by
  refine Except.foldlM_invariant (fun read state => (state.enclosing.length : Int) =
    Symbol.rise (read.map (·.symbol))) ?_ [] tokens {} parser rfl run
  intro read state token next length stepped
  rw [List.map_append, Symbol.rise_append, ← length]
  cases reads_of_step stepped with
  | number lexeme symbol expects => simp [symbol, Symbol.lift]
  | opening symbol expects => simp [symbol, Symbol.lift]
  | minus symbol expects => simp [symbol, Symbol.lift]
  | operator op symbol expects => simp [symbol, Symbol.lift]
  | closing outer enclosing symbol expects inside =>
    simp only [inside, List.length_cons, symbol, List.map_cons, List.map_nil, Symbol.rise_cons,
      Symbol.rise_nil, Symbol.lift]
    omega

end Parser

theorem Chain.parse_of_check {maxDepth : Nat} {tokens : List Token}
    (checked : Nesting.check maxDepth tokens = .ok ()) (endPosition : Nat) :
    Chain.parse maxDepth endPosition tokens =
      tokens.foldlM Parser.step {} >>= fun parser => parser.finish endPosition := by
  rw [Chain.parse, checked]
  rfl

/-- Balanced tokens that are no sentence are refused at the first of them with which no sentence
goes on, or at the end. -/
theorem Chain.parse_of_not_isSentence {maxDepth endPosition : Nat} {tokens : List Token}
    (checked : Nesting.check maxDepth tokens = .ok ())
    (invalid : ¬IsSentence (tokens.map (·.symbol))) :
    (∃ before token after, tokens = before ++ token :: after ∧
      BeginsSentence (before.map (·.symbol)) ∧
      ¬BeginsSentence ((before ++ [token]).map (·.symbol)) ∧
      Chain.parse maxDepth endPosition tokens = .error (.misplaced token.position)) ∨
    BeginsSentence (tokens.map (·.symbol)) ∧
      Chain.parse maxDepth endPosition tokens = .error (.misplaced endPosition) := by
  have balanced := ((Nesting.check_ok_iff tokens).mp checked).1
  rw [Chain.parse_of_check checked]
  cases run : tokens.foldlM Parser.step {} with
  | error cause =>
    left
    obtain ⟨before, token, after, parser, rfl, first, refused⟩ :=
      Except.foldlM_eq_error_iff.mp run
    refine ⟨before, token, after, rfl, (Parser.HasRead.run first).beginsSentence, ?_, ?_⟩
    · rw [← Parser.run_ok_iff_beginsSentence]
      rintro ⟨next, more⟩
      rw [Parser.run_append first, List.foldlM_cons, refused] at more
      cases more
    · rcases Parser.step_eq_error refused with rfl | ⟨_, closing, outermost⟩
      · rfl
      · -- more parentheses would be closed than opened
        have level := Parser.length_enclosing first
        have rises := balanced.2 ((before ++ [token]).map (·.symbol))
          (by simp [List.map_append, List.prefix_append_right_inj])
        simp [outermost, closing, Symbol.lift, ← level] at rises
  | ok parser =>
    right
    refine ⟨(Parser.HasRead.run run).beginsSentence, ?_⟩
    have level := Parser.length_enclosing run
    rw [balanced.1] at level
    have outermost : parser.enclosing = [] := List.length_eq_zero_iff.mp (by omega)
    change parser.finish endPosition = _
    cases finished : parser.finish endPosition with
    | ok chain =>
      obtain ⟨wellFormed, spells⟩ := Parser.spells_of_finish (Parser.HasRead.run run) finished
      rw [spells.symbols] at invalid
      exact absurd (chain.isSentence_symbols wellFormed) invalid
    | error cause =>
      rcases Parser.finish_eq_error finished with rfl | ⟨_, inside⟩
      · rfl
      · exact absurd outermost inside

end ExactCalc
