import ExactCalc.Proofs.Evaluation.Transcript
import ExactCalc.Proofs.Token.Lossless

/-! The text of an account says which account it is.

No field and no step holds an end of line, and no step is empty. A marker holds no equals sign, and
neither a marker nor the text of a decimal holds a comma. So an account is read back from its text
by cutting: at the ends of the lines, the stored values at the commas, and each value after its
equals sign.
-/

set_option autoImplicit false

namespace ExactCalc

/-! ## Cutting a text -/

theorem splitOn_flatMap_ended {mark : Char} {lines : List (List Char)}
    (plain : ∀ line ∈ lines, mark ∉ line) :
    (lines.flatMap (· ++ [mark])).splitOn mark = lines ++ [[]] := by
  induction lines with
  | nil => rfl
  | cons line rest ih =>
    obtain ⟨first, others⟩ := List.forall_mem_cons.mp plain
    rw [List.flatMap_cons, List.append_assoc, List.singleton_append,
      List.splitOn_append_cons_self_of_not_mem first, ih others, List.cons_append]

theorem intercalate_cons_eq_flatMap (separator first : List Char) (rest : List (List Char)) :
    List.intercalate separator (first :: rest) = first ++ rest.flatMap (separator ++ ·) := by
  induction rest generalizing first with
  | nil => simp
  | cons next rest ih =>
    rw [List.intercalate_cons_cons, ih, List.flatMap_cons, List.append_assoc, List.append_assoc]

theorem not_mem_intercalate {c : Char} {separator : List Char} {texts : List (List Char)}
    (apart : c ∉ separator) (plain : ∀ text ∈ texts, c ∉ text) :
    c ∉ List.intercalate separator texts := by
  cases texts with
  | nil => exact List.not_mem_nil
  | cons first rest =>
    obtain ⟨head, tail⟩ := List.forall_mem_cons.mp plain
    rw [intercalate_cons_eq_flatMap, List.mem_append, List.mem_flatMap]
    rintro (early | ⟨text, inside, late⟩)
    · exact head early
    · exact (List.mem_append.mp late).elim apart (tail text inside)

/-- The blank of each separator is left before the text that it stands before. -/
theorem splitOn_intercalate_blank {mark : Char} {first : List Char} {rest : List (List Char)}
    (plain : ∀ text ∈ first :: rest, mark ∉ text) (blank : mark ≠ ' ') :
    (List.intercalate [mark, ' '] (first :: rest)).splitOn mark =
      first :: rest.map (' ' :: ·) := by
  have same : List.intercalate [mark, ' '] (first :: rest) =
      List.intercalate [mark] (first :: rest.map (' ' :: ·)) := by
    rw [intercalate_cons_eq_flatMap, intercalate_cons_eq_flatMap, List.flatMap_map]
    rfl
  obtain ⟨head, tail⟩ := List.forall_mem_cons.mp plain
  rw [same]
  refine List.splitOn_intercalate mark (List.forall_mem_cons.mpr ⟨head, ?_⟩) (List.cons_ne_nil _ _)
  intro text member
  obtain ⟨text, inside, rfl⟩ := List.mem_map.mp member
  exact List.not_mem_cons_of_ne_of_not_mem blank (tail text inside)

/-! ## Reading decimals -/

theorem Decimal.spelled_print (d : Decimal) : Token.Spelled d.print := d.inAlphabet_of_mem_print

def Decimal.ofText (text : List Char) : Decimal :=
  if text.head? = some '-' then (literalMagnitude text.tail).withSign true
  else (literalMagnitude text).withSign false

theorem Decimal.ofText_print (d : Decimal) : ofText d.print = d := by
  obtain ⟨negative, mantissa, scale⟩ := d
  have unsigned := Magnitude.literalMagnitude_print ⟨mantissa, scale⟩
  cases negative with
  | false =>
    rw [ofText, if_neg (head_print_of_nonneg rfl)]
    exact congrArg (Magnitude.withSign · false) unsigned
  | true => exact congrArg (Magnitude.withSign · true) unsigned

/-! ## Reading stored values -/

namespace Store

def entry (index : Nat) (value : Decimal) : List Char :=
  marker index ++ " = ".toList ++ value.print

def entryValue (entry : List Char) : Decimal :=
  .ofText ((entry.dropWhile (· != '=')).drop 2)

def ofText (text : List Char) : Store :=
  if text.head? = some '#' then .ofList ((text.splitOn ',').map entryValue) else {}

theorem entryValue_append {before : List Char} (plain : '=' ∉ before) (value : Decimal) :
    entryValue (before ++ "= ".toList ++ value.print) = value := by
  have dropped : (before ++ "= ".toList ++ value.print).dropWhile (· != '=') =
      "= ".toList ++ value.print := by
    rw [List.append_assoc, List.dropWhile_append_of_pos]
    · rfl
    · intro c member
      exact bne_iff_ne.mpr fun same => plain (same ▸ member)
  rw [entryValue, dropped]
  exact value.ofText_print

theorem entryValue_entry (index : Nat) (value : Decimal) :
    entryValue (entry index value) = value := by
  have plain : '=' ∉ marker index ++ [' '] := by
    simp [not_mem_marker (c := '=') rfl]
  have read := entryValue_append plain value
  rwa [List.append_assoc (marker index)] at read

theorem entryValue_blank (index : Nat) (value : Decimal) :
    entryValue (' ' :: entry index value) = value := by
  have plain : '=' ∉ ' ' :: marker index ++ [' '] := by
    simp [not_mem_marker (c := '=') rfl]
  have read := entryValue_append plain value
  rwa [List.append_assoc (' ' :: marker index)] at read

theorem not_mem_entry {c : Char} (foreign : Token.inAlphabet c = false)
    (other : c ∉ ['#', ' ', '=']) (index : Nat) (value : Decimal) : c ∉ entry index value := by
  have shown := value.spelled_print.not_mem foreign
  simp only [List.mem_cons, List.not_mem_nil, or_false, not_or] at other
  obtain ⟨hash, blank, equals⟩ := other
  simp [entry, not_mem_marker foreign hash, blank, equals, shown]

theorem print_of_cons (first : Decimal) (rest : List Decimal) :
    (ofList (first :: rest)).print = List.intercalate ", ".toList
      (entry 0 first :: rest.mapIdx fun index value => entry (index + 1) value) := by
  rw [print, if_neg (by simp [isEmpty, ofList]), toList_ofList, List.mapIdx_cons]
  rfl

theorem not_mem_print (store : Store) : '\n' ∉ store.print := by
  rw [print]
  split
  · decide
  · refine not_mem_intercalate (by decide) fun text member => ?_
    obtain ⟨index, _, rfl⟩ := List.mem_mapIdx.mp member
    exact not_mem_entry rfl (by decide) index _

theorem ofText_print (store : Store) : ofText store.print = store := by
  obtain ⟨⟨values⟩⟩ := store
  cases values with
  | nil => rfl
  | cons first rest =>
    change ofText (ofList (first :: rest)).print = ofList (first :: rest)
    have begins : (ofList (first :: rest)).print.head? = some '#' := by
      rw [print_of_cons, intercalate_cons_eq_flatMap]
      rfl
    have plain : ∀ text ∈ entry 0 first :: rest.mapIdx fun index value => entry (index + 1) value,
        ',' ∉ text := by
      refine List.forall_mem_cons.mpr ⟨not_mem_entry rfl (by decide) 0 first, fun text member => ?_⟩
      obtain ⟨index, _, rfl⟩ := List.mem_mapIdx.mp member
      exact not_mem_entry rfl (by decide) (index + 1) _
    -- every entry but the first has the blank of its separator before it
    have others : ((rest.mapIdx fun index value => entry (index + 1) value).map (' ' :: ·)).map
        entryValue = rest :=
      List.ext_getElem (by simp) fun index _ _ => by simp [entryValue_blank]
    rw [ofText, if_pos begins, print_of_cons]
    change ofList ((List.splitOn ',' (List.intercalate [',', ' '] _)).map entryValue) = _
    rw [splitOn_intercalate_blank plain (by decide), List.map_cons, entryValue_entry, others]

end Store

/-! ## Reading an account -/

namespace Trace

/-- The lines of an account: one for each field, one that announces the steps, and the steps. -/
def lines (trace : Trace) : List (List Char) :=
  ("Jetons        : ".toList ++ trace.tokens) ::
    ("Forme         : ".toList ++ trace.form) ::
    ("Profondeur    : ".toList ++ Nat.toDigits 10 trace.depth) ::
    ("Substitutions : ".toList ++ trace.store.print) ::
    "Étapes        :".toList ::
    trace.steps.map ("  ".toList ++ ·)

def ofText? (text : List Char) : Option Trace :=
  match text.splitOn '\n' with
  | tokens :: form :: depth :: stored :: _ :: steps => some
    { tokens := tokens.drop 16
      form := form.drop 16
      depth := digitsValue (depth.drop 16)
      steps := steps.dropLast.map (List.drop 2)
      store := .ofText (stored.drop 16) }
  | _ => none

def stepsOfText (text : List Char) : List (List Char) :=
  if text = [] then [] else text.splitOn '\n'

/-- Each field fills one line and so does each step, which shows something. -/
structure OneLined (trace : Trace) : Prop where
  tokens : '\n' ∉ trace.tokens
  form : '\n' ∉ trace.form
  steps : ∀ step ∈ trace.steps, step ≠ [] ∧ '\n' ∉ step

variable {trace : Trace}

theorem length_lines (trace : Trace) : trace.lines.length = 5 + trace.steps.length := by
  simp only [lines, List.length_cons, List.length_map]
  omega

theorem print_eq_flatMap_lines (trace : Trace) :
    trace.print = trace.lines.flatMap (· ++ ['\n']) := by
  -- for any labels, as unfolding would compute with their texts
  have joined (tokens form depth stored announced : List Char) (write : List Char → List Char) :
      (tokens :: form :: depth :: stored :: announced :: trace.steps.map write).flatMap
          (· ++ ['\n']) =
        tokens ++ ['\n'] ++ (form ++ ['\n']) ++ (depth ++ ['\n']) ++ (stored ++ ['\n']) ++
          (announced ++ ['\n']) ++ trace.steps.flatMap fun step => write step ++ ['\n'] := by
    simp only [List.flatMap_cons, List.flatMap_map, List.append_assoc]
  exact (joined _ _ _ _ _ _).symm

theorem OneLined.not_mem_lines (oneLined : trace.OneLined) :
    ∀ line ∈ trace.lines, '\n' ∉ line := by
  have steps : ∀ line ∈ trace.steps.map ("  ".toList ++ ·), '\n' ∉ line := by
    intro line member
    obtain ⟨step, inside, rfl⟩ := List.mem_map.mp member
    simp [(oneLined.steps step inside).2]
  simp only [lines, List.forall_mem_cons]
  refine ⟨?_, ?_, ?_, ?_, by decide, steps⟩
  · simp [oneLined.tokens]
  · simp [oneLined.form]
  · simp [(Token.spelled_toDigits trace.depth).not_mem (c := '\n') rfl]
  · simp [trace.store.not_mem_print]

theorem OneLined.splitOn_print (oneLined : trace.OneLined) :
    trace.print.splitOn '\n' = trace.lines ++ [[]] := by
  rw [print_eq_flatMap_lines, splitOn_flatMap_ended oneLined.not_mem_lines]

theorem OneLined.ofText?_print (oneLined : trace.OneLined) :
    ofText? trace.print = some trace := by
  rw [ofText?, oneLined.splitOn_print]
  obtain ⟨tokens, form, depth, steps, store⟩ := trace
  -- behind the last end of line there is an empty piece, which is no step
  have shown : (steps.map ("  ".toList ++ ·) ++ [[]]).dropLast.map (List.drop 2) = steps := by
    rw [List.dropLast_concat, List.map_map]
    exact List.map_id steps
  have dropped {label : List Char} (wide : label.length = 16) (text : List Char) :
      (label ++ text).drop 16 = text := List.drop_left' wide
  simp only [lines, List.cons_append]
  rw [dropped (by decide), dropped (by decide), dropped (by decide), dropped (by decide), shown,
    digitsValue_toDigits, store.ofText_print]

theorem OneLined.stepsOfText_printSteps (oneLined : trace.OneLined) :
    stepsOfText trace.printSteps = trace.steps := by
  have plain : ∀ step ∈ trace.steps, '\n' ∉ step := fun step member =>
    (oneLined.steps step member).2
  by_cases none : trace.steps = []
  · rw [printSteps, none]
    rfl
  · have split : trace.printSteps.splitOn '\n' = trace.steps :=
      List.splitOn_intercalate '\n' plain none
    -- of some steps there is no text only if one of them is empty
    have shown : trace.printSteps ≠ [] := by
      intro empty
      rw [empty, List.splitOn_nil] at split
      have member : [] ∈ trace.steps := split ▸ List.mem_singleton_self []
      exact (oneLined.steps [] member).1 rfl
    rw [stepsOfText, if_neg shown, split]

end Trace

/-! ## The account of a text -/

theorem Operator.spelled_symbol (op : Operator) : Token.Spelled [op.symbol] :=
  List.forall_mem_singleton.mpr (by cases op <;> rfl)

theorem Step.not_mem_printForms {forms : List Form}
    (spelled : ∀ form ∈ forms, Token.Spelled form.excerpt) (operators : List Operator) {c : Char}
    (foreign : Token.inAlphabet c = false) (other : c ≠ '#') :
    c ∉ printForms forms operators := by
  cases forms with
  | nil => exact List.not_mem_nil
  | cons first rest =>
    obtain ⟨head, tail⟩ := List.forall_mem_cons.mp spelled
    rw [printForms, List.mem_append, List.mem_flatMap]
    rintro (early | ⟨⟨op, form⟩, inside, late⟩)
    · exact Form.not_mem_print head foreign other early
    · rcases List.mem_cons.mp late with same | late
      · exact op.spelled_symbol.not_mem foreign (List.mem_singleton.mpr same)
      · have member : form ∈ rest := (List.of_mem_zip inside).2
        exact Form.not_mem_print (tail form member) foreign other late

theorem Step.print_oneLined {step : Step} (spelled : Token.Spelled step.excerpt) :
    step.print ≠ [] ∧ '\n' ∉ step.print := by
  have decimal (d : Decimal) : '\n' ∉ d.print := d.spelled_print.not_mem rfl
  have marker (index : Nat) : '\n' ∉ Store.marker index :=
    Store.not_mem_marker rfl (by decide) index
  cases step with
  | group index expression value =>
    have inside : '\n' ∉ expression.print := spelled.not_mem rfl
    exact ⟨by simp [print], by simp [print, marker, inside, decimal]⟩
  | negation index form value =>
    have inside : '\n' ∉ form.print := Form.not_mem_print spelled rfl (by decide)
    exact ⟨by simp [print], by simp [print, marker, inside, decimal]⟩
  | rewriting forms operators =>
    have each : ∀ form ∈ forms, Token.Spelled form.excerpt := fun form inside c member =>
      spelled c (List.mem_flatMap.mpr ⟨form, inside, member⟩)
    have inside : '\n' ∉ printForms forms operators :=
      not_mem_printForms each operators rfl (by decide)
    exact ⟨by simp [print], by simp [print, inside]⟩
  | reduction a op b result =>
    have symbol : '\n' ∉ [op.symbol] := op.spelled_symbol.not_mem rfl
    exact ⟨by simp [print], by simp [print, decimal, List.mem_singleton.not.mp symbol]⟩

theorem Token.Covers.newline_not_mem {tokens : List Token} {text : List Char}
    (covers : Covers tokens text) (plain : '\n' ∉ text) : '\n' ∉ spacedText tokens := by
  intro member
  -- without its blanks the text of the tokens is the text that they were cut from
  have kept : '\n' ∈ (spacedText tokens).filter (· != ' ') :=
    List.mem_filter.mpr ⟨member, rfl⟩
  rw [covers.spaced] at kept
  exact plain kept

variable {limits : Limits} {text : List Char} {whole : Explanation}

theorem Explanation.form_eq_text (explained : explain limits text = .ok whole) :
    whole.trace.form = text :=
  (not_mem_print_of_accepted (readExpression_of_explained explained)).1

theorem Explanation.oneLined_trace (explained : explain limits text = .ok whole) :
    whole.trace.OneLined := by
  have accepted := readExpression_of_explained explained
  obtain ⟨_, scanned, _⟩ := (readExpression_ok_iff _ _ _ _).mp accepted
  have spelled : Token.Spelled text := ((Token.scan_ok_iff _ _).mp scanned).1
  have plain : '\n' ∉ text := spelled.not_mem rfl
  constructor
  case tokens => exact (Token.covers_of_scan scanned).newline_not_mem plain
  case form =>
    rw [form_eq_text explained]
    exact plain
  case steps =>
    intro line member
    obtain ⟨step, inside, rfl⟩ := List.mem_map.mp member
    exact Step.print_oneLined ((exists_replay_of_explain explained).1.spelled step inside)

/-- The text of an account is five lines for its fields and one for each step, and from these lines
the account can be read back; so can the steps from the text that shows them alone. No other
expression has an account with this text, and no other account has it. -/
theorem explain_unambiguous (explained : explain limits text = .ok whole) :
    whole.trace.print = whole.trace.lines.flatMap (· ++ ['\n']) ∧
    whole.trace.print.splitOn '\n' = whole.trace.lines ++ [[]] ∧
    whole.trace.lines.length = 5 + whole.trace.steps.length ∧
    Trace.ofText? whole.trace.print = some whole.trace ∧
    Trace.stepsOfText whole.trace.printSteps = whole.trace.steps ∧
    ∀ (otherLimits : Limits) (otherText : List Char) (other : Explanation),
      explain otherLimits otherText = .ok other → other.trace.print = whole.trace.print →
      otherText = text ∧ other.trace = whole.trace := by
  have oneLined := Explanation.oneLined_trace explained
  refine ⟨whole.trace.print_eq_flatMap_lines, oneLined.splitOn_print, whole.trace.length_lines,
    oneLined.ofText?_print, oneLined.stepsOfText_printSteps,
    fun otherLimits otherText other came same => ?_⟩
  -- one text is read back as both accounts, and an account shows its expression
  have read := (Explanation.oneLined_trace came).ofText?_print
  rw [same, oneLined.ofText?_print] at read
  have trace : other.trace = whole.trace := (Option.some.inj read).symm
  refine ⟨?_, trace⟩
  rw [← Explanation.form_eq_text came, trace, Explanation.form_eq_text explained]

theorem explain_unambiguous_group :
    ∃ whole : Explanation, explain {} "(0.50)".toList = .ok whole ∧
      whole.trace.print.splitOn '\n' =
        ["Jetons        : ( 0.50 )".toList, "Forme         : (0.50)".toList,
          "Profondeur    : 1".toList, "Substitutions : #0 = 0.50".toList,
          "Étapes        :".toList, "  #0 = (0.50) = 0.50".toList, []] ∧
      Trace.ofText? whole.trace.print = some whole.trace ∧
      whole.trace.store.toList = [⟨false, 50, 2⟩] := by
  have computed : (fun whole => (whole.trace.lines, whole.store.toList)) <$>
      explain {} "(0.50)".toList = .ok
        (["Jetons        : ( 0.50 )".toList, "Forme         : (0.50)".toList,
          "Profondeur    : 1".toList, "Substitutions : #0 = 0.50".toList,
          "Étapes        :".toList, "  #0 = (0.50) = 0.50".toList], [⟨false, 50, 2⟩]) := by
    decide +kernel
  obtain ⟨whole, explained, same⟩ := Except.map_eq_ok_iff.mp computed
  obtain ⟨lines, stored⟩ := Prod.mk.inj same
  obtain ⟨_, split, _, read, _⟩ := explain_unambiguous explained
  rw [lines] at split
  exact ⟨whole, explained, split, read, stored⟩

end ExactCalc
