import ExactCalc.CommandLine.Line
import ExactCalc.CommandLine.Settings

/-! Answering the expressions of a command line one after another. A refused expression does not
stop the run; the exit code remembers it. -/

set_option autoImplicit false

namespace ExactCalc.CommandLine

def commandLineTarget : String := "calculatrice_decimale::cli"

inductive Output where
  | standard (line : String)
  | error (line : String)
  | logged (record : Record)

structure Batch where
  outputs : Array Output := #[]
  failed : Bool := false

namespace Batch

def exitCode (batch : Batch) : Nat := if batch.failed then 1 else 0

def put (batch : Batch) (journal : Journal) (output : Output) : Batch :=
  { batch with outputs := (batch.outputs ++ journal.written.map Output.logged).push output }

/-- Answer one more expression. A refusal is logged before it is shown. -/
def add (limits : Limits) (explained : Bool) (filter : LogFilter) (batch : Batch)
    (line : List Char) : Batch :=
  match answerIn limits explained line { filter } with
  | (.ok text, journal) => batch.put journal (.standard text)
  | (.error message, journal) =>
    let journal := journal.log .warn commandLineTarget fun _ => message
    { batch.put journal (.error message) with failed := true }

def run (settings : Settings) (filter : LogFilter) : Batch :=
  settings.expressions.foldl (add settings.limits settings.explained filter) {}

def standardLines (batch : Batch) : List String :=
  batch.outputs.toList.filterMap fun
    | .standard line => some line
    | _ => none

def errorLines (batch : Batch) : List String :=
  batch.outputs.toList.filterMap fun
    | .error line => some line
    | _ => none

def records (batch : Batch) : List Record :=
  batch.outputs.toList.filterMap fun
    | .logged record => some record
    | _ => none

end Batch

end ExactCalc.CommandLine
