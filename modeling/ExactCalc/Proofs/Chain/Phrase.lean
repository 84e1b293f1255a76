import ExactCalc.Proofs.Chain.WellFormed

/-! The grammar of chains over symbols, and how deep parentheses nest in a sequence of symbols.

    chain   := ['-'] series
    series  := operand (operator operand)*
    operand := NUMBER | '(' chain ')'

The phrases of the grammar are what the well-formed trees are written with, and they nest as deep
as their tree.
-/

set_option autoImplicit false

namespace ExactCalc

inductive Phrase where
  | chain
  | series
  | operand

/-- The derivations of the grammar. -/
inductive Phrase.Derives : Phrase → List Symbol → Prop where
  | number (lexeme : List Char) : Derives .operand [.number lexeme]
  | group {inner : List Symbol} :
      Derives .chain inner → Derives .operand (.opening :: inner ++ [.closing])
  | last {operand : List Symbol} : Derives .operand operand → Derives .series operand
  | more {operand rest : List Symbol} (op : Operator) :
      Derives .operand operand → Derives .series rest →
      Derives .series (operand ++ .operator op :: rest)
  | plain {series : List Symbol} : Derives .series series → Derives .chain series
  | negated {series : List Symbol} :
      Derives .series series → Derives .chain (.operator .sub :: series)

def IsSentence (symbols : List Symbol) : Prop := Phrase.chain.Derives symbols

/-! ## Trees give phrases -/

theorem Phrase.derives_series (first : Operand) (pairs : List (Operator × Operand))
    (head : operand.Derives first.symbols)
    (tail : ∀ pair ∈ pairs, operand.Derives pair.2.symbols) :
    series.Derives (first.symbols ++ Symbol.series pairs) := by
  induction pairs generalizing first with
  | nil => simpa using Derives.last head
  | cons pair rest ih =>
    have remaining := ih pair.2 (tail pair List.mem_cons_self)
      fun other member => tail other (List.mem_cons_of_mem pair member)
    exact .more pair.1 head remaining

theorem Phrase.derives_chain (chain : Expression) (wellFormed : chain.WellFormed)
    (operands : ∀ member ∈ chain.operands, operand.Derives member.symbols) :
    IsSentence chain.symbols := by
  obtain ⟨negated, first, rest, operators, rfl, length⟩ := wellFormed.exists_first
  rw [Chain.symbols_cons _ _ _ _ (Nat.le_of_eq length), List.append_assoc]
  have series := derives_series first (operators.zip rest) (operands first List.mem_cons_self)
    fun pair member => operands pair.2 (List.mem_cons_of_mem _ (List.of_mem_zip member).2)
  cases negated with
  | false => exact .plain series
  | true => exact .negated series

theorem Operand.derives (operand : Operand) (wellFormed : operand.WellFormed) :
    Phrase.operand.Derives operand.symbols := by
  induction operand, wellFormed using Operand.WellFormed.induct with
  | literal lexeme position => exact .number lexeme
  | group chain wellFormed ih =>
    rw [symbols_group]
    exact .group (Phrase.derives_chain chain wellFormed ih)

theorem Chain.isSentence_symbols (chain : Expression) (wellFormed : chain.WellFormed) :
    IsSentence chain.symbols :=
  Phrase.derives_chain chain wellFormed fun member inside =>
    member.derives (wellFormed.operand inside)

/-! ## Nesting -/

namespace Symbol

def lift : Symbol → Int
  | .opening => 1
  | .closing => -1
  | _ => 0

/-- Parentheses opened less parentheses closed. -/
def rise (symbols : List Symbol) : Int :=
  symbols.foldr (fun symbol total => symbol.lift + total) 0

@[simp] theorem rise_nil : rise [] = 0 := rfl

@[simp] theorem rise_cons (symbol : Symbol) (rest : List Symbol) :
    rise (symbol :: rest) = symbol.lift + rise rest := rfl

@[simp] theorem rise_append (first rest : List Symbol) :
    rise (first ++ rest) = rise first + rise rest := by
  induction first with
  | nil => simp
  | cons symbol first ih => simp [ih, Int.add_assoc]

/-- At no place more than `limit` parentheses are open. -/
def NestsWithin (limit : Int) (symbols : List Symbol) : Prop :=
  ∀ before, before <+: symbols → rise before ≤ limit

/-- As many parentheses are closed as opened, and at no place more. -/
def Balanced (symbols : List Symbol) : Prop :=
  rise symbols = 0 ∧ ∀ before, before <+: symbols → 0 ≤ rise before

theorem forall_prefix_append (first rest : List Symbol) (bound : Int → Prop) :
    (∀ before, before <+: first ++ rest → bound (rise before)) ↔
      (∀ before, before <+: first → bound (rise before)) ∧
        ∀ before, before <+: rest → bound (rise first + rise before) := by
  constructor
  · intro every
    refine ⟨fun before inside => every before (inside.trans (List.prefix_append _ _)), ?_⟩
    intro before inside
    rw [← rise_append]
    exact every (first ++ before) ((List.prefix_append_right_inj first).mpr inside)
  · rintro ⟨early, late⟩ before ⟨tail, same⟩
    rcases List.append_eq_append_iff.mp same with ⟨more, rfl, _⟩ | ⟨more, rfl, rfl⟩
    · exact early before (List.prefix_append _ _)
    · rw [rise_append]
      exact late more (List.prefix_append _ _)

theorem forall_prefix_cons (symbol : Symbol) (rest : List Symbol) (bound : Int → Prop) :
    (∀ before, before <+: symbol :: rest → bound (rise before)) ↔
      bound 0 ∧ ∀ before, before <+: rest → bound (symbol.lift + rise before) := by
  constructor
  · intro every
    refine ⟨every [] List.nil_prefix, fun before inside => ?_⟩
    exact every (symbol :: before) (List.cons_prefix_cons.mpr ⟨rfl, inside⟩)
  · rintro ⟨empty, every⟩ before inside
    rcases List.prefix_cons_iff.mp inside with rfl | ⟨tail, rfl, inside⟩
    · exact empty
    · exact every tail (List.cons_prefix_cons.mp inside).2

theorem forall_prefix_singleton (symbol : Symbol) (bound : Int → Prop) :
    (∀ before, before <+: [symbol] → bound (rise before)) ↔ bound 0 ∧ bound symbol.lift := by
  rw [forall_prefix_cons]
  simp

theorem nestsWithin_append (limit : Int) (first rest : List Symbol) :
    NestsWithin limit (first ++ rest) ↔
      NestsWithin limit first ∧ NestsWithin (limit - rise first) rest := by
  have parts := forall_prefix_append first rest (· ≤ limit)
  have moved (n : Int) : rise first + n ≤ limit ↔ n ≤ limit - rise first := by omega
  simpa only [NestsWithin, moved] using parts

theorem nestsWithin_singleton (limit : Int) (symbol : Symbol) :
    NestsWithin limit [symbol] ↔ 0 ≤ limit ∧ symbol.lift ≤ limit :=
  forall_prefix_singleton symbol (· ≤ limit)

theorem nestsWithin_nonneg {limit : Int} {symbols : List Symbol}
    (within : NestsWithin limit symbols) : 0 ≤ limit :=
  within [] List.nil_prefix

/-- Parentheses around balanced symbols take one level. -/
theorem nestsWithin_enclose (limit : Int) (inner : List Symbol) (level : rise inner = 0) :
    NestsWithin limit (.opening :: inner ++ [.closing]) ↔ NestsWithin (limit - 1) inner := by
  have split : .opening :: inner ++ [.closing] = [.opening] ++ (inner ++ [Symbol.closing]) := rfl
  rw [split, nestsWithin_append, nestsWithin_append, nestsWithin_singleton, nestsWithin_singleton]
  simp only [rise_cons, rise_nil, level, lift, Int.add_zero, Int.sub_zero]
  constructor
  · exact fun parts => parts.2.1
  · intro within
    have room := nestsWithin_nonneg within
    exact ⟨by omega, within, by omega⟩

theorem Balanced.append {first rest : List Symbol} (left : Balanced first)
    (right : Balanced rest) : Balanced (first ++ rest) := by
  refine ⟨by rw [rise_append, left.1, right.1, Int.add_zero], ?_⟩
  rw [forall_prefix_append first rest (0 ≤ ·), left.1]
  exact ⟨left.2, by simpa only [Int.zero_add] using right.2⟩

theorem Balanced.enclose {inner : List Symbol} (balanced : Balanced inner) :
    Balanced (.opening :: inner ++ [.closing]) := by
  have split : .opening :: inner ++ [.closing] = [.opening] ++ (inner ++ [Symbol.closing]) := rfl
  rw [split]
  refine ⟨by simp only [rise_append, rise_cons, rise_nil, balanced.1, lift]; rfl, ?_⟩
  rw [forall_prefix_append _ _ (0 ≤ ·), forall_prefix_append _ _ (fun n => 0 ≤ _ + n),
    forall_prefix_singleton _ (0 ≤ ·), forall_prefix_singleton _ (fun n => 0 ≤ _ + (_ + n))]
  simp only [rise_cons, rise_nil, balanced.1, lift]
  refine ⟨by decide, fun before inside => ?_, by decide⟩
  have bound := balanced.2 before inside
  omega

/-- A balanced part can be left out. -/
theorem balanced_insert_iff {part : List Symbol} (balanced : Balanced part)
    (before after : List Symbol) :
    Balanced (before ++ (part ++ after)) ↔ Balanced (before ++ after) := by
  have level := balanced.1
  unfold Balanced
  rw [forall_prefix_append _ _ (0 ≤ ·), forall_prefix_append _ _ (0 ≤ ·),
    forall_prefix_append _ _ (fun n => 0 ≤ _ + n)]
  simp only [rise_append, level, Int.zero_add]
  constructor
  · exact fun ⟨total, early, _, late⟩ => ⟨total, early, late⟩
  · rintro ⟨total, early, late⟩
    refine ⟨total, early, fun inner inside => ?_, late⟩
    have start := early before List.prefix_rfl
    have within := balanced.2 inner inside
    omega

theorem balanced_singleton {symbol : Symbol} (level : symbol.lift = 0) : Balanced [symbol] :=
  ⟨by simp [level], (forall_prefix_singleton symbol (0 ≤ ·)).mpr
    ⟨Int.le_refl 0, Int.le_of_eq level.symm⟩⟩

end Symbol

theorem Phrase.Derives.balanced {phrase : Phrase} {symbols : List Symbol}
    (derives : phrase.Derives symbols) : Symbol.Balanced symbols := by
  induction derives with
  | number lexeme => exact Symbol.balanced_singleton rfl
  | group _ ih => exact ih.enclose
  | last _ ih => exact ih
  | more op _ _ ihOperand ihRest =>
    exact ihOperand.append ((Symbol.balanced_singleton rfl).append ihRest)
  | plain _ ih => exact ih
  | negated _ ih =>
    have minus : Symbol.Balanced [.operator .sub] := Symbol.balanced_singleton rfl
    exact minus.append ih

/-! ## Depth -/

theorem foldl_max_le_iff (start limit : Nat) (depths : List Nat) :
    depths.foldl max start ≤ limit ↔ start ≤ limit ∧ ∀ depth ∈ depths, depth ≤ limit := by
  induction depths generalizing start with
  | nil => simp
  | cons depth rest ih => rw [List.foldl_cons, ih, Nat.max_le, List.forall_mem_cons, and_assoc]

theorem Chain.depth_le_iff (chain : Expression) (limit : Nat) :
    chain.depth ≤ limit ↔ ∀ operand ∈ chain.operands, operand.depth ≤ limit := by
  simp only [Chain.depth, Chain.deepest, Chain.map, foldl_max_le_iff, Nat.zero_le, true_and,
    List.forall_mem_map]

@[simp] theorem Operand.depth_literal (lexeme : List Char) (position : Nat) :
    (Operand.literal lexeme position).depth = 0 := rfl

@[simp] theorem Operand.depth_group (chain : Expression) :
    (Operand.group chain).depth = chain.depth + 1 := by
  rw [Operand.depth, Operand.fold_group]
  rfl

theorem Operand.rise_symbols (operand : Operand) (wellFormed : operand.WellFormed) :
    Symbol.rise operand.symbols = 0 :=
  (operand.derives wellFormed).balanced.1

theorem Symbol.nestsWithin_series (limit : Int) (pairs : List (Operator × Operand))
    (room : 0 ≤ limit) (level : ∀ pair ∈ pairs, rise pair.2.symbols = 0) :
    NestsWithin limit (series pairs) ↔ ∀ pair ∈ pairs, NestsWithin limit pair.2.symbols := by
  induction pairs with
  | nil => simpa [NestsWithin] using room
  | cons pair rest ih =>
    have remaining := ih fun other member => level other (List.mem_cons_of_mem pair member)
    have split : series (pair :: rest) =
        [.operator pair.1] ++ (pair.2.symbols ++ series rest) := rfl
    rw [split, nestsWithin_append, nestsWithin_append, nestsWithin_singleton,
      level pair List.mem_cons_self]
    simpa [lift, room] using fun _ => remaining

theorem Symbol.nestsWithin_head (limit : Int) (negated : Bool) (room : 0 ≤ limit) :
    NestsWithin limit (head negated) := by
  cases negated with
  | false => simpa [head, NestsWithin] using room
  | true => exact (nestsWithin_singleton limit _).mpr ⟨room, room⟩

@[simp] theorem Symbol.rise_head (negated : Bool) : rise (head negated) = 0 := by
  cases negated <;> rfl

theorem Chain.nestsWithin_iff_operands (chain : Expression) (wellFormed : chain.WellFormed)
    (limit : Int) (room : 0 ≤ limit) :
    Symbol.NestsWithin limit chain.symbols ↔
      ∀ operand ∈ chain.operands, Symbol.NestsWithin limit operand.symbols := by
  obtain ⟨negated, first, rest, operators, rfl, length⟩ := wellFormed.exists_first
  have level (operand : Operand) (member : operand ∈ first :: rest) :
      Symbol.rise operand.symbols = 0 :=
    operand.rise_symbols (wellFormed.operand member)
  have pairs : (∀ pair ∈ operators.zip rest, Symbol.NestsWithin limit pair.2.symbols) ↔
      ∀ operand ∈ rest, Symbol.NestsWithin limit operand.symbols := by
    constructor
    · intro every operand member
      rw [← List.map_snd_zip (Nat.le_of_eq length)] at member
      obtain ⟨pair, inside, rfl⟩ := List.mem_map.mp member
      exact every pair inside
    · exact fun every pair member => every pair.2 (List.of_mem_zip member).2
  -- every piece is level, so that the limit is the same at each of them
  rw [Chain.symbols_cons _ _ _ _ (Nat.le_of_eq length), Symbol.nestsWithin_append,
    Symbol.nestsWithin_append, Symbol.rise_append, Symbol.rise_head,
    level first List.mem_cons_self, Int.add_zero, Int.sub_zero,
    Symbol.nestsWithin_series limit _ room fun pair member =>
      level pair.2 (List.mem_cons_of_mem _ (List.of_mem_zip member).2), pairs]
  simp [Symbol.nestsWithin_head limit negated room]

theorem Operand.nestsWithin_iff (operand : Operand) (wellFormed : operand.WellFormed)
    (limit : Int) : Symbol.NestsWithin limit operand.symbols ↔ operand.depth ≤ limit := by
  induction operand, wellFormed using Operand.WellFormed.induct generalizing limit with
  | literal lexeme position =>
    rw [symbols_literal, Symbol.nestsWithin_singleton]
    exact and_self_iff
  | group chain wellFormed ih =>
    have balanced := (chain.isSentence_symbols wellFormed).balanced
    rw [symbols_group, depth_group, Symbol.nestsWithin_enclose _ _ balanced.1]
    rcases Int.lt_or_le (limit - 1) 0 with below | room
    · -- no room for the parentheses themselves
      have shallow : ¬Symbol.NestsWithin (limit - 1) chain.symbols := fun within =>
        absurd (Symbol.nestsWithin_nonneg within) (Int.not_le.mpr below)
      simp only [shallow, false_iff]
      omega
    · obtain ⟨depth, same⟩ := Int.eq_ofNat_of_zero_le room
      rw [chain.nestsWithin_iff_operands wellFormed _ room]
      have each : (∀ member ∈ chain.operands, Symbol.NestsWithin (limit - 1) member.symbols) ↔
          ∀ member ∈ chain.operands, member.depth ≤ depth := by
        refine forall₂_congr fun member inside => ?_
        rw [ih member inside, same, Int.ofNat_le]
      rw [each, ← chain.depth_le_iff]
      omega

theorem Operand.depth_eq_of_symbols {first second : Operand} (left : first.WellFormed)
    (right : second.WellFormed) (same : first.symbols = second.symbols) :
    first.depth = second.depth := by
  have bounds (limit : Int) : (first.depth : Int) ≤ limit ↔ (second.depth : Int) ≤ limit := by
    rw [← first.nestsWithin_iff left, ← second.nestsWithin_iff right, same]
  have upper := (bounds second.depth).mpr (Int.le_refl _)
  have lower := (bounds first.depth).mp (Int.le_refl _)
  omega

/-- A well-formed chain nests as deep as it is. -/
theorem Chain.nestsWithin_iff (chain : Expression) (wellFormed : chain.WellFormed)
    (limit : Nat) : Symbol.NestsWithin limit chain.symbols ↔ chain.depth ≤ limit := by
  rw [chain.nestsWithin_iff_operands wellFormed _ (Int.natCast_nonneg limit), chain.depth_le_iff]
  refine forall₂_congr fun member inside => ?_
  rw [member.nestsWithin_iff (wellFormed.operand inside), Int.ofNat_le]

end ExactCalc
