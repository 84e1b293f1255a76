import ExactCalc.Proofs.CommandLine.Logging

/-! The expressions of one command line, each on its own.

Answering an expression only adds to a batch, and adds the same whatever the batch has put out. So a
batch puts out what its parts put out, one part after the other, and fails if one of them does. A
refusal neither ends the run nor changes another answer. Where nothing of the log is kept, the
answers are all that is put out.
-/

set_option autoImplicit false

namespace ExactCalc.CommandLine

/-! ## Batches one after the other -/

namespace Batch

def append (first second : Batch) : Batch where
  outputs := first.outputs ++ second.outputs
  failed := first.failed || second.failed

instance : Append Batch := ⟨append⟩

theorem outputs_append (first second : Batch) :
    (first ++ second).outputs = first.outputs ++ second.outputs := rfl

theorem failed_append (first second : Batch) :
    (first ++ second).failed = (first.failed || second.failed) := rfl

theorem append_empty (batch : Batch) : batch ++ ({} : Batch) = batch := by
  obtain ⟨outputs, failed⟩ := batch
  change Batch.mk (outputs ++ #[]) (failed || false) = _
  rw [Array.append_empty, Bool.or_false]

theorem append_put (first second : Batch) (journal : Journal) (output : Output) :
    (first ++ second).put journal output = first ++ second.put journal output := by
  have outputs : ((first ++ second).put journal output).outputs =
      first.outputs ++ (second.put journal output).outputs := by
    rw [put, put, outputs_append, Array.append_assoc, Array.push_append]
  exact congrArg (Batch.mk · (first.failed || second.failed)) outputs

/-- One more expression adds the same, whatever was put out before. -/
theorem append_add (limits : Limits) (explained : Bool) (filter : LogFilter)
    (first second : Batch) (line : List Char) :
    (first ++ second).add limits explained filter line =
      first ++ second.add limits explained filter line := by
  unfold add
  split
  · exact append_put first second _ _
  · exact congrArg₂ Batch.mk (congrArg outputs (append_put first second _ _)) (Bool.or_true _).symm

theorem append_foldl_add (limits : Limits) (explained : Bool) (filter : LogFilter)
    (lines : List (List Char)) (first second : Batch) :
    lines.foldl (add limits explained filter) (first ++ second) =
      first ++ lines.foldl (add limits explained filter) second :=
  List.foldl_hom (first ++ ·) fun batch line =>
    append_add limits explained filter first batch line

def standardOutput (batch : Batch) : String := standardText batch.outputs.toList

def errorOutput (batch : Batch) : String := errorText batch.outputs.toList

/-- The error output apart from the log. -/
def unloggedErrors (batch : Batch) : String := errorText (unlogged batch.outputs.toList)

theorem standardOutput_append (first second : Batch) :
    (first ++ second).standardOutput = first.standardOutput ++ second.standardOutput := by
  rw [standardOutput, standardText, outputs_append, Array.toList_append, List.filterMap_append,
    String.join_append]
  rfl

theorem errorOutput_append (first second : Batch) :
    (first ++ second).errorOutput = first.errorOutput ++ second.errorOutput := by
  rw [errorOutput, errorText, outputs_append, Array.toList_append, List.filterMap_append,
    String.join_append]
  rfl

theorem exitCode_eq_one_iff (batch : Batch) : batch.exitCode = 1 ↔ batch.failed = true := by
  simp [exitCode]

theorem exitCode_eq_zero_iff (batch : Batch) : batch.exitCode = 0 ↔ batch.failed = false := by
  simp [exitCode]

theorem exitCode_append (first second : Batch) :
    (first ++ second).exitCode = 1 ↔ first.exitCode = 1 ∨ second.exitCode = 1 := by
  simp only [exitCode_eq_one_iff, failed_append, Bool.or_eq_true]

end Batch

def Settings.batch (settings : Settings) (filter : LogFilter) (lines : List (List Char)) : Batch :=
  Batch.run { settings with expressions := lines } filter

section

variable (settings : Settings) (filter : LogFilter)

theorem Settings.batch_append (before after : List (List Char)) :
    settings.batch filter (before ++ after) =
      settings.batch filter before ++ settings.batch filter after := by
  let step := Batch.add settings.limits settings.explained filter
  calc (before ++ after).foldl step {}
    _ = after.foldl step (before.foldl step {} ++ ({} : Batch)) := by
      rw [List.foldl_append, Batch.append_empty]
    _ = before.foldl step {} ++ after.foldl step {} := Batch.append_foldl_add ..

/-! ## Answers in order -/

def ended (lines : List String) : String := String.join (lines.map (· ++ "\n"))

theorem ended_append (first second : List String) :
    ended (first ++ second) = ended first ++ ended second := by
  rw [ended, List.map_append, String.join_append]
  rfl

def texts (answers : List (Except String String)) : List String :=
  answers.filterMap fun
    | .ok text => some text
    | .error _ => none

def messages (answers : List (Except String String)) : List String :=
  answers.filterMap fun
    | .ok _ => none
    | .error message => some message

theorem messages_append (first second : List (Except String String)) :
    messages (first ++ second) = messages first ++ messages second := List.filterMap_append

theorem standardText_ofAnswers (answers : List (Except String String)) :
    standardText (answers.map .ofAnswer) = ended (texts answers) := by
  rw [standardText, ended, texts, List.filterMap_map, List.map_filterMap]
  refine congrArg String.join (List.filterMap_congr fun answer _ => ?_)
  cases answer <;> rfl

theorem errorText_ofAnswers (answers : List (Except String String)) :
    errorText (answers.map .ofAnswer) = ended (messages answers) := by
  rw [errorText, ended, messages, List.filterMap_map, List.map_filterMap]
  refine congrArg String.join (List.filterMap_congr fun answer _ => ?_)
  cases answer <;> rfl

theorem Settings.unlogged_batch (lines : List (List Char)) :
    unlogged (settings.batch filter lines).outputs.toList =
      (lines.map (answer settings.limits settings.explained)).map .ofAnswer := by
  rw [List.map_map]
  exact (Batch.run_answers { settings with expressions := lines } filter).1

theorem Settings.standardOutput_batch (lines : List (List Char)) :
    (settings.batch filter lines).standardOutput =
      ended (texts (lines.map (answer settings.limits settings.explained))) := by
  rw [Batch.standardOutput, ← standardText_unlogged, settings.unlogged_batch,
    standardText_ofAnswers]

theorem Settings.unloggedErrors_batch (lines : List (List Char)) :
    (settings.batch filter lines).unloggedErrors =
      ended (messages (lines.map (answer settings.limits settings.explained))) := by
  rw [Batch.unloggedErrors, settings.unlogged_batch, errorText_ofAnswers]

theorem Settings.failed_batch (lines : List (List Char)) :
    (settings.batch filter lines).failed =
      lines.any fun line => !(answer settings.limits settings.explained line).isOk :=
  (Batch.run_answers { settings with expressions := lines } filter).2

theorem Settings.exitCode_batch (lines : List (List Char)) :
    (settings.batch filter lines).exitCode = 0 ↔
      ∀ line ∈ lines, ∃ text, answer settings.limits settings.explained line = .ok text := by
  rw [Batch.exitCode_eq_zero_iff, failed_batch, List.any_eq_false]
  refine forall₂_congr fun line _ => ?_
  cases answer settings.limits settings.explained line <;> simp [Except.isOk, Except.toBool]

/-! ## Where nothing is logged -/

theorem Batch.outputs_put_empty (batch : Batch) (filter : LogFilter) (output : Output) :
    (batch.put { filter } output).outputs = batch.outputs.push output := by
  have nothing : ({ filter } : Journal).written = #[] := Array.filter_empty
  rw [put, nothing, Array.map_empty, Array.append_empty]

theorem Batch.add_of_quiet {filter : LogFilter} (quiet : filter.IsQuiet) (limits : Limits)
    (explained : Bool) (batch : Batch) (line : List Char) :
    (batch.add limits explained filter line).outputs =
      batch.outputs.push (.ofAnswer (answer limits explained line)) := by
  have came : answerIn limits explained line { filter } =
      (answer limits explained line, { filter }) :=
    Prod.ext (answerIn_answer limits explained line { filter })
      (answerIn_of_quiet quiet limits explained line)
  rw [add, came]
  cases answer limits explained line with
  | ok text => exact batch.outputs_put_empty filter _
  | error message =>
    dsimp only
    rw [Journal.log_of_unadmitted quiet.2]
    exact batch.outputs_put_empty filter _

/-- Where the log is quiet, a batch puts out its answers and nothing else. -/
theorem Batch.foldl_add_of_quiet {filter : LogFilter} (quiet : filter.IsQuiet) (limits : Limits)
    (explained : Bool) (lines : List (List Char)) (batch : Batch) :
    (lines.foldl (add limits explained filter) batch).outputs.toList =
      batch.outputs.toList ++ lines.map fun line => .ofAnswer (answer limits explained line) := by
  induction lines generalizing batch with
  | nil => exact (List.append_nil _).symm
  | cons line rest ih =>
    rw [List.foldl_cons, ih, add_of_quiet quiet, Array.toList_push, List.append_assoc]
    rfl

theorem Settings.errorOutput_of_quiet {filter : LogFilter} (quiet : filter.IsQuiet)
    (lines : List (List Char)) :
    (settings.batch filter lines).errorOutput = (settings.batch filter lines).unloggedErrors := by
  have answers : (settings.batch filter lines).outputs.toList =
      lines.map fun line => .ofAnswer (answer settings.limits settings.explained line) :=
    Batch.foldl_add_of_quiet quiet settings.limits settings.explained lines {}
  rw [Batch.errorOutput, Batch.unloggedErrors, unlogged_batch, answers, List.map_map]
  rfl

/-- A refusal at any place leaves the other answers as they are. -/
theorem Settings.batch_of_refused {line : List Char} {message : String}
    (refused : answer settings.limits settings.explained line = .error message)
    (before after : List (List Char)) :
    (settings.batch filter (before ++ line :: after)).standardOutput =
        (settings.batch filter (before ++ after)).standardOutput ∧
      (settings.batch filter (before ++ line :: after)).unloggedErrors =
        (settings.batch filter before).unloggedErrors ++ (message ++ "\n") ++
          (settings.batch filter after).unloggedErrors ∧
      (settings.batch filter (before ++ line :: after)).exitCode = 1 := by
  refine ⟨?_, ?_, ?_⟩
  · rw [standardOutput_batch, standardOutput_batch]
    simp [texts, refused]
  · have parts : before ++ line :: after = before ++ [line] ++ after := by simp
    have own : messages ([line].map (answer settings.limits settings.explained)) = [message] := by
      simp [messages, refused]
    simp only [unloggedErrors_batch, parts, List.map_append, messages_append, ended_append, own]
    simp [ended]
  · rw [Batch.exitCode_eq_one_iff, failed_batch, List.any_eq_true]
    refine ⟨line, by simp, ?_⟩
    rw [refused]
    rfl

theorem run_of_settings {settings : Settings} {arguments : List Argument}
    (read : Settings.ofArguments arguments = .ok settings) (asked : settings.expressions ≠ []) :
    run filter arguments = .finished (settings.batch filter settings.expressions).exitCode
      (settings.batch filter settings.expressions).outputs.toList := by
  have nonempty : settings.expressions.isEmpty = false := by
    simpa using asked
  simp only [run, read, nonempty, Bool.false_eq_true, if_false]
  rfl

end

/-- The expressions of one command line are answered independently. A batch puts out and fails as
its parts do; each expression is answered as it is alone, under the limits asked for with the depth
cut off at its ceiling; and a refusal at any place leaves the other answers as they are. -/
theorem expressions_independent (settings : Settings) (filter : LogFilter) :
    let limits : Limits := ⟨min settings.maxDepth 1024, settings.maxLength⟩
    let alone := answer limits settings.explained
    let batch := settings.batch filter
    (∀ before after,
      (batch (before ++ after)).standardOutput =
          (batch before).standardOutput ++ (batch after).standardOutput ∧
        (batch (before ++ after)).errorOutput =
          (batch before).errorOutput ++ (batch after).errorOutput ∧
        ((batch (before ++ after)).exitCode = 1 ↔
          (batch before).exitCode = 1 ∨ (batch after).exitCode = 1)) ∧
    (∀ lines,
      (batch lines).standardOutput = ended (texts (lines.map alone)) ∧
        (batch lines).unloggedErrors = ended (messages (lines.map alone)) ∧
        (filter.IsQuiet → (batch lines).errorOutput = (batch lines).unloggedErrors) ∧
        ((batch lines).exitCode = 0 ↔ ∀ line ∈ lines, ∃ text, alone line = .ok text)) ∧
    (∀ line, (∃ text, alone line = .ok text) ↔
      ∃ value, evaluate limits (trimBlanks line) = .ok value) ∧
    (∀ before line after message, alone line = .error message →
      (batch (before ++ line :: after)).standardOutput =
          (batch (before ++ after)).standardOutput ∧
        (batch (before ++ line :: after)).unloggedErrors =
          (batch before).unloggedErrors ++ (message ++ "\n") ++ (batch after).unloggedErrors ∧
        (batch (before ++ line :: after)).exitCode = 1) ∧
    ∀ arguments, Settings.ofArguments arguments = .ok settings → settings.expressions ≠ [] →
      run filter arguments = .finished (batch settings.expressions).exitCode
        (batch settings.expressions).outputs.toList := by
  intro limits alone batch
  refine ⟨fun before after => ?_, fun lines => ?_, fun line => answer_ok_iff,
    fun before line after message refused => ?_, fun arguments read asked => ?_⟩
  · have joined : batch (before ++ after) = batch before ++ batch after :=
      settings.batch_append filter before after
    rw [joined]
    exact ⟨Batch.standardOutput_append _ _, Batch.errorOutput_append _ _,
      Batch.exitCode_append _ _⟩
  · exact ⟨settings.standardOutput_batch filter lines, settings.unloggedErrors_batch filter lines,
      fun quiet => settings.errorOutput_of_quiet quiet lines, settings.exitCode_batch filter lines⟩
  · exact settings.batch_of_refused filter refused before after
  · exact run_of_settings filter read asked

theorem expressions_independent_mixed :
    let words := ["1+2", "1/0", "--profondeur-max=1", "((1))", "2*", "--longueur-max=9",
      "1000000000", "2*3"]
    let arguments := .text "x".toList :: words.map fun word => .text word.toList
    let settings : Settings :=
      ⟨1, 9, false, ["1+2", "1/0", "((1))", "2*", "1000000000", "2*3"].map String.toList⟩
    Settings.ofArguments arguments = .ok settings ∧ settings.expressions ≠ [] ∧
      (LogFilter.read []).IsQuiet ∧
      answer ⟨1, 9⟩ false "1/0".toList =
        .error "1/0 : Erreur arithmétique: division par zéro (1 / 0)" ∧
      ∃ outputs, run (.read []) arguments = .finished 1 outputs ∧
        standardText outputs = "1+2 = 3\n2*3 = 6\n" ∧
        errorText outputs =
          "1/0 : Erreur arithmétique: division par zéro (1 / 0)\n" ++
          "((1)) : Imbrication trop profonde (limite: 1 niveaux)\n" ++
          "2* : Erreur de syntaxe: invalid maths (position 2)\n" ++
          "1000000000 : Entrée trop longue (10 octets, limite: 9)\n" := by
  intro words arguments settings
  have read : Settings.ofArguments arguments = .ok settings := by decide +kernel
  have asked : settings.expressions ≠ [] := by decide
  have quiet : (LogFilter.read []).IsQuiet := by decide +kernel
  have refused : answer ⟨1, 9⟩ false "1/0".toList =
      .error "1/0 : Erreur arithmétique: division par zéro (1 / 0)" := by decide +kernel
  obtain ⟨_, whole, _, after, ran⟩ := expressions_independent settings (.read [])
  obtain ⟨standard, unlogged, silent, _⟩ := whole settings.expressions
  obtain ⟨_, _, exitCode⟩ := after ["1+2".toList] "1/0".toList
    (["((1))", "2*", "1000000000", "2*3"].map String.toList) _ refused
  refine ⟨read, asked, quiet, refused, _, (ran arguments read asked).trans ?_, standard.trans ?_,
    ((silent quiet).trans unlogged).trans ?_⟩
  · exact congrArg (Outcome.finished · _) exitCode
  · decide +kernel
  · decide +kernel

end ExactCalc.CommandLine
