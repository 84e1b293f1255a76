import ExactCalc.CommandLine.Program
import ExactCalc.Proofs.CommandLine.Answer

/-! The journal of a run observes it and does nothing else.

Where traces are kept, an evaluation logs the very lines that its account would have, then its
value. And what is kept of the log decides on no answer: whatever the filter, a batch puts out one
line for each expression, and between these lines nothing but the log. Where the filter admits no
value and no refusal, nothing is logged.
-/

set_option autoImplicit false

namespace ExactCalc

/-! ## What an evaluation logs -/

/-- A filter that admits a record admits a graver one of the same origin. -/
theorem LogFilter.admits_mono {filter : LogFilter} {level graver : Level} {target : List Char}
    (admits : filter.admits level target) (le : graver.rank ≤ level.rank) :
    filter.admits graver target := by
  unfold LogFilter.admits at admits ⊢
  split at admits
  · rename_i directive decided
    unfold Directive.admits at admits ⊢
    split at admits
    · rename_i threshold
      exact decide_eq_true (le.trans (of_decide_eq_true admits))
    · cases admits
  · cases admits

theorem Journal.log_of_admits {journal : Journal} {level : Level} {target : String}
    (admits : journal.filter.admits level target.toList) (message : Unit → String) :
    journal.log level target message =
      { journal with records := journal.records.push ⟨level, target, message ()⟩ } := by
  rw [Journal.log, if_pos admits]

theorem Journal.log_of_unadmitted {journal : Journal} {level : Level} {target : String}
    (unadmitted : journal.filter.admits level target.toList = false) (message : Unit → String) :
    journal.log level target message = journal := by
  rw [Journal.log, unadmitted, if_neg Bool.false_ne_true]

def evaluationRecord (level : Level) (text : List Char) : Record :=
  ⟨level, evaluationTarget, String.ofList text⟩

theorem Progress.journal_noteAll (progress : Progress)
    (admits : progress.journal.filter.admits .trace evaluationTarget.toList) (steps : List Step) :
    (progress.noteAll steps).journal.filter = progress.journal.filter ∧
      (progress.noteAll steps).journal.records.toList = progress.journal.records.toList ++
        (steps.map Step.print).map (evaluationRecord .trace) := by
  induction steps generalizing progress with
  | nil => exact ⟨rfl, (List.append_nil _).symm⟩
  | cons step rest ih =>
    let noted : Progress := ((Run.note step).run.run progress).2
    have logged : noted.journal = { progress.journal with
        records := progress.journal.records.push (evaluationRecord .trace step.print) } :=
      Journal.log_of_admits admits fun _ => String.ofList step.print
    have still : noted.journal.filter.admits .trace evaluationTarget.toList := by
      rw [logged]
      exact admits
    obtain ⟨filter, records⟩ := ih noted still
    rw [logged] at filter records
    refine ⟨filter, records.trans ?_⟩
    rw [Array.toList_push, List.append_assoc]
    rfl

theorem Progress.journal_noteAll_of_unadmitted (progress : Progress)
    (unadmitted : progress.journal.filter.admits .trace evaluationTarget.toList = false)
    (steps : List Step) : (progress.noteAll steps).journal = progress.journal := by
  induction steps generalizing progress with
  | nil => rfl
  | cons step rest ih =>
    let noted : Progress := ((Run.note step).run.run progress).2
    have same : noted.journal = progress.journal :=
      Journal.log_of_unadmitted unadmitted fun _ => String.ofList step.print
    have still : noted.journal.filter.admits .trace evaluationTarget.toList = false := by
      rw [same]
      exact unadmitted
    exact (ih noted still).trans same

theorem does_of_explained {limits : Limits} {text : List Char} {whole : Explanation}
    (explained : explain limits text = .ok whole) :
    Run.Does [] (Run.evaluate whole.expression) (.ok whole.value) whole.store.toList
      whole.steps :=
  holds_of_explained explained
    (evaluate_adds_of_accepted (readExpression_of_explained explained)).does

/-- Where traces are kept, an evaluation leaves the lines of its account in the journal, in their
order, and then its value. -/
theorem records_evaluateIn {limits : Limits} {text : List Char} {whole : Explanation}
    (explained : explain limits text = .ok whole) {journal : Journal}
    (admits : journal.filter.admits .trace evaluationTarget.toList) :
    (evaluateIn limits text journal).2.records.toList = journal.records.toList ++
      whole.trace.steps.map (evaluationRecord .trace) ++
      [evaluationRecord .debug (text ++ " = ".toList ++ whole.value.print)] := by
  let start : Progress := { steps := none, journal }
  have ran : (Run.evaluate whole.expression).run.run start =
      (.ok whole.value, start.after whole.store.toList whole.steps) :=
    does_of_explained explained start rfl
  have evaluated : (evaluateIn limits text journal).2 =
      (start.noteAll whole.steps).journal.log .debug evaluationTarget fun _ =>
        String.ofList (text ++ " = ".toList ++ whole.value.print) := by
    unfold evaluateIn
    simp only [readExpression_of_explained explained]
    rw [ran]
    rfl
  obtain ⟨filter, records⟩ := start.journal_noteAll admits whole.steps
  have debug :
      (start.noteAll whole.steps).journal.filter.admits .debug evaluationTarget.toList := by
    rw [filter]
    exact LogFilter.admits_mono admits (by decide)
  rw [evaluated, Journal.log_of_admits debug, Array.toList_push, records]
  rfl

/-! ## Where nothing is kept -/

/-- Whether the filter admits nothing that a batch logs. -/
def LogFilter.IsQuiet (filter : LogFilter) : Prop :=
  filter.admits .debug evaluationTarget.toList = false ∧
    filter.admits .warn CommandLine.commandLineTarget.toList = false

instance (filter : LogFilter) : Decidable filter.IsQuiet := instDecidableAnd

theorem LogFilter.IsQuiet.trace {filter : LogFilter} (quiet : filter.IsQuiet) :
    filter.admits .trace evaluationTarget.toList = false := by
  by_contra admitted
  have debug : filter.admits .debug evaluationTarget.toList :=
    LogFilter.admits_mono (eq_true_of_ne_false admitted) (by decide)
  exact Bool.false_ne_true (quiet.1.symm.trans debug)

section

variable {limits : Limits} {text : List Char} {journal : Journal}

theorem journal_evaluate_of_quiet {tokens : List Token} {chain : Expression}
    (accepted : readExpression limits text = .ok (tokens, chain)) (quiet : journal.filter.IsQuiet)
    {steps : Option (Array Step)} {answer : Except EvalError Decimal} {progress : Progress}
    (ran : (Run.evaluate chain).run.run { steps, journal } = (answer, progress)) :
    progress.journal = journal ∧
      ∀ message, progress.journal.log .debug evaluationTarget message = journal := by
  obtain ⟨outcome, stored, noted, does, _⟩ := evaluate_adds_of_accepted accepted
  let start : Progress := { steps, journal }
  obtain rfl : start.after stored noted = progress :=
    (Prod.mk.inj ((does start rfl).symm.trans ran)).2
  have same : (start.after stored noted).journal = journal :=
    start.journal_noteAll_of_unadmitted quiet.trace noted
  refine ⟨same, fun message => ?_⟩
  rw [same]
  exact Journal.log_of_unadmitted quiet.1 message

theorem evaluateIn_of_quiet (quiet : journal.filter.IsQuiet) :
    (evaluateIn limits text journal).2 = journal := by
  cases accepted : readExpression limits text with
  | error error => rw [evaluateIn_of_refused accepted]
  | ok result =>
    unfold evaluateIn
    simp only [accepted]
    split
    · rename_i ran
      exact (journal_evaluate_of_quiet accepted quiet ran).1
    · rename_i ran
      exact (journal_evaluate_of_quiet accepted quiet ran).2 fun _ => _

theorem explainIn_of_quiet (quiet : journal.filter.IsQuiet) :
    (explainIn limits text journal).2 = journal := by
  cases accepted : readExpression limits text with
  | error error => rw [explainIn_of_refused accepted]
  | ok result =>
    unfold explainIn
    simp only [accepted]
    split
    · rename_i ran
      exact (journal_evaluate_of_quiet accepted quiet ran).1
    · rename_i ran
      exact (journal_evaluate_of_quiet accepted quiet ran).2 fun _ => _

end

namespace CommandLine

/-! ## What is put out beside the log -/

def Output.isLogged : Output → Bool
  | .logged _ => true
  | .standard _ | .error _ => false

def unlogged (outputs : List Output) : List Output := outputs.filter (!·.isLogged)

def Output.ofAnswer : Except String String → Output
  | .ok text => .standard text
  | .error message => .error message

theorem answerIn_answer (limits : Limits) (explained : Bool) (line : List Char)
    (journal : Journal) :
    (answerIn limits explained line journal).1 = answer limits explained line := by
  unfold answer
  cases came : explain limits (trimBlanks line) with
  | error error => rw [answerIn_of_refused came, answerIn_of_refused came]
  | ok whole => rw [answerIn_of_explained came, answerIn_of_explained came]

theorem answerIn_of_quiet {journal : Journal} (quiet : journal.filter.IsQuiet) (limits : Limits)
    (explained : Bool) (line : List Char) :
    (answerIn limits explained line journal).2 = journal := by
  unfold answerIn
  cases explained with
  | false => exact evaluateIn_of_quiet quiet
  | true => exact explainIn_of_quiet quiet

namespace Batch

theorem unlogged_put (batch : Batch) (journal : Journal) (output : Output) :
    unlogged (batch.put journal output).outputs.toList =
      unlogged batch.outputs.toList ++ unlogged [output] := by
  have records : unlogged (journal.written.toList.map Output.logged) = [] := by
    refine List.filter_eq_nil_iff.mpr fun item member => ?_
    obtain ⟨record, _, rfl⟩ := List.mem_map.mp member
    exact Bool.false_ne_true
  rw [put, Array.toList_push, Array.toList_append, Array.toList_map, unlogged,
    List.filter_append, List.filter_append]
  change unlogged _ ++ unlogged (journal.written.toList.map Output.logged) ++ unlogged _ = _
  rw [records, List.append_nil]

theorem add_answer (limits : Limits) (explained : Bool) (filter : LogFilter) (batch : Batch)
    (line : List Char) :
    unlogged (batch.add limits explained filter line).outputs.toList =
        unlogged batch.outputs.toList ++ [.ofAnswer (answer limits explained line)] ∧
      (batch.add limits explained filter line).failed =
        (batch.failed || !(answer limits explained line).isOk) := by
  have answered := answerIn_answer limits explained line { filter }
  rw [← answered]
  unfold add
  split
  · rename_i text journal came
    rw [came]
    exact ⟨unlogged_put _ _ _, (Bool.or_false _).symm⟩
  · rename_i message journal came
    rw [came]
    exact ⟨unlogged_put _ _ _, (Bool.or_true _).symm⟩

/-- A batch puts out its answers in order, with only the log between them, and fails if one of them
is a refusal. -/
theorem foldl_add_answers (limits : Limits) (explained : Bool) (filter : LogFilter)
    (lines : List (List Char)) (batch : Batch) :
    unlogged (lines.foldl (add limits explained filter) batch).outputs.toList =
        unlogged batch.outputs.toList ++
          lines.map (fun line => .ofAnswer (answer limits explained line)) ∧
      (lines.foldl (add limits explained filter) batch).failed =
        (batch.failed || lines.any fun line => !(answer limits explained line).isOk) := by
  induction lines generalizing batch with
  | nil => exact ⟨(List.append_nil _).symm, (Bool.or_false _).symm⟩
  | cons line rest ih =>
    obtain ⟨outputs, failed⟩ := batch.add_answer limits explained filter line
    obtain ⟨laterOutputs, laterFailed⟩ := ih (batch.add limits explained filter line)
    rw [outputs, List.append_assoc] at laterOutputs
    rw [failed, Bool.or_assoc] at laterFailed
    exact ⟨laterOutputs, laterFailed⟩

theorem run_answers (settings : Settings) (filter : LogFilter) :
    unlogged (run settings filter).outputs.toList = settings.expressions.map (fun line =>
        .ofAnswer (answer settings.limits settings.explained line)) ∧
      (run settings filter).failed = settings.expressions.any fun line =>
        !(answer settings.limits settings.explained line).isOk := by
  have answers := foldl_add_answers settings.limits settings.explained filter
    settings.expressions {}
  simpa [unlogged, run] using answers

end Batch

/-! ## Whole runs -/

/-- What a run that opens no window shows beside the log: the exit code, the standard output and the
error output. -/
def Outcome.shown : Outcome → Option (Nat × String × String)
  | .finished exitCode outputs =>
    some (exitCode, standardText outputs, errorText (unlogged outputs))
  | .refused refusal => some (refusal.exitCode, "", refusal.message ++ "\n")
  | .window _ _ => none

theorem standardText_unlogged (outputs : List Output) :
    standardText (unlogged outputs) = standardText outputs := by
  unfold standardText unlogged
  rw [List.filterMap_filter]
  refine congrArg String.join (List.filterMap_congr fun output _ => ?_)
  cases output <;> rfl

theorem run_shown (filter other : LogFilter) (arguments : List Argument) :
    (run filter arguments).shown = (run other arguments).shown := by
  unfold run
  split
  · rfl
  · rfl
  · rfl
  · split
    · rfl
    · rename_i settings _ _
      obtain ⟨outputs, failed⟩ := Batch.run_answers settings filter
      obtain ⟨otherOutputs, otherFailed⟩ := Batch.run_answers settings other
      have same := outputs.trans otherOutputs.symm
      have exitCode :
          (Batch.run settings filter).exitCode = (Batch.run settings other).exitCode := by
        rw [Batch.exitCode, Batch.exitCode, failed, otherFailed]
      have standard : standardText (Batch.run settings filter).outputs.toList =
          standardText (Batch.run settings other).outputs.toList := by
        rw [← standardText_unlogged, same, standardText_unlogged]
      dsimp only [Outcome.shown]
      rw [exitCode, standard, same]

/-- Where traces are kept, what an evaluation logs are the lines of its account, in order, and then
its value. What a run shows beside the log is the same whatever is kept of the log. -/
theorem logging_observes :
    (∀ (limits : Limits) (text : List Char) (whole : Explanation) (journal : Journal),
      explain limits text = .ok whole →
      journal.filter.admits .trace evaluationTarget.toList →
      (evaluateIn limits text journal).2.records.toList = journal.records.toList ++
        whole.trace.steps.map (evaluationRecord .trace) ++
        [evaluationRecord .debug (text ++ " = ".toList ++ whole.value.print)]) ∧
    ∀ (filter other : LogFilter) (arguments : List Argument),
      (run filter arguments).shown = (run other arguments).shown :=
  ⟨fun _ _ _ _ explained admits => records_evaluateIn explained admits, run_shown⟩

theorem logging_observes_quotients :
    (evaluateIn {} "2*3".toList { filter := .read "trace".toList }).2.records.toList =
        [evaluationRecord .trace "2 * 3 = 6".toList, evaluationRecord .debug "2*3 = 6".toList] ∧
      (run (.read "trace".toList) [.text [], .text "2*3".toList, .text "1/0".toList]).shown =
        some (1, "2*3 = 6\n", "1/0 : Erreur arithmétique: division par zéro (1 / 0)\n") ∧
      (run (.read "off".toList) [.text [], .text "2*3".toList, .text "1/0".toList]).shown =
        some (1, "2*3 = 6\n", "1/0 : Erreur arithmétique: division par zéro (1 / 0)\n") := by
  have computed : (fun whole => (whole.trace.steps, whole.value)) <$>
      explain {} "2*3".toList = .ok (["2 * 3 = 6".toList], ⟨false, 6, 0⟩) := by decide +kernel
  obtain ⟨whole, explained, same⟩ := Except.map_eq_ok_iff.mp computed
  obtain ⟨lines, value⟩ := Prod.mk.inj same
  have admits : (LogFilter.read "trace".toList).admits .trace evaluationTarget.toList := by
    decide +kernel
  have records := logging_observes.1 {} "2*3".toList whole { filter := .read "trace".toList }
    explained admits
  have quiet : (run (.read "off".toList) [.text [], .text "2*3".toList, .text "1/0".toList]).shown =
      some (1, "2*3 = 6\n", "1/0 : Erreur arithmétique: division par zéro (1 / 0)\n") := by
    decide +kernel
  rw [lines, value] at records
  exact ⟨records, (logging_observes.2 _ _ _).trans quiet, quiet⟩

end CommandLine

end ExactCalc
