import ExactCalc.CommandLine.Program
import ExactCalc.Window.Event

/-! The program: arguments, environment and standard streams around `CommandLine.run`.

The window is a conversation: each line read is put into the entry field and evaluated, and what
the window then shows is written out.
-/

set_option autoImplicit false

open ExactCalc ExactCalc.CommandLine

def programName : String := "calculatrice_decimale"

def logVariable : String := "RUST_LOG"

def writeOutput : Output → IO Unit
  | .standard line => IO.println line
  | .error line => IO.eprintln line
  | .logged record => IO.eprint (recordText record)

def showWindow (window : Window) : IO Unit := do
  if window.error.isEmpty then
    IO.println (String.ofList window.result)
    unless window.panel.steps.isEmpty do
      IO.println (String.ofList window.panel.steps)
  else
    IO.eprintln window.error

partial def converse (filter : LogFilter) (window : Window) : IO Unit := do
  let line ← (← IO.getStdin).getLine
  unless line.isEmpty do
    let (window, journal) := (window.setEntry line.toList).hit .equals { filter }
    for record in journal.written do
      IO.eprint (recordText record)
    showWindow window
    converse filter window

def main (arguments : List String) : IO UInt32 := do
  let setting := (← IO.getEnv logVariable).getD ""
  let ⟨filter, warnings⟩ := LogFilter.readWith LogFilter.compilePlain setting.toList
  for warning in warnings do
    IO.eprintln s!"warning: {warning}, ignoring it"
  match run filter ((programName :: arguments).map fun argument => .text argument.toList) with
  | .finished exitCode outputs =>
    outputs.forM writeOutput
    return exitCode.toUInt32
  | .refused refusal =>
    IO.eprintln refusal.message
    return refusal.exitCode.toUInt32
  | .window limits records =>
    records.forM fun record => IO.eprint (recordText record)
    converse filter (.new limits)
    return 0
