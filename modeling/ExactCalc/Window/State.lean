import ExactCalc.Calculator
import ExactCalc.Text.Quoted

/-! What the window shows, and what its commands do to it. -/

set_option autoImplicit false

namespace ExactCalc

structure Panel where
  tokens : List Char := []
  form : List Char := []
  stored : List Char := []
  steps : List Char := []
  deriving DecidableEq

def Panel.ofTrace (trace : Trace) : Panel where
  tokens := trace.tokens
  form := trace.form ++ " (profondeur ".toList ++ Nat.toDigits 10 trace.depth ++ [')']
  stored := trace.store.print
  steps := trace.printSteps

structure Window where
  entry : List Char := []
  result : List Char := []
  error : String := ""
  panel : Panel := {}
  limits : Limits
  /-- Whether the entry field is to be given the focus at the next frame. -/
  focused : Bool := true
  /-- Whether a frame has been drawn. The keypad finds its place in the first one. -/
  laidOut : Bool := false
  deriving DecidableEq

namespace Window

def target : String := "calculatrice_decimale::app::vue"

def clampDepth (depth : Nat) : Nat := min (max 1 depth) Limits.depthCeiling

def setDepth (window : Window) (depth : Nat) : Window :=
  { window with
    limits := { window.limits with maxDepth := clampDepth depth }
    focused := true }

def new (limits : Limits) : Window := setDepth { limits } limits.maxDepth

def setEntry (window : Window) (entry : List Char) : Window := { window with entry }

def clearEntry (window : Window) : Window := { window with entry := [], focused := true }

def deleteLast (window : Window) : Window :=
  { window with entry := window.entry.dropLast, focused := true }

def insert (window : Window) (symbol : Char) : Window :=
  { window with entry := window.entry ++ [symbol], focused := true }

def clearResults (window : Window) : Window :=
  { window with result := [], error := "", panel := {}, focused := true }

def clearAll (window : Window) : Window :=
  let cleared := window.clearEntry.clearResults
  { cleared with limits := { cleared.limits with maxDepth := Limits.defaultDepth } }

/-- Show an error. The result stays, the account goes. -/
def setError (window : Window) (error : String) : Window :=
  { window with error, panel := {}, focused := true }

def setResult (window : Window) (result : List Char) (panel : Panel) : Window :=
  { window with result, error := "", panel, focused := true }

def evaluate (window : Window) (journal : Journal) : Window × Journal :=
  let text := trimBlanks window.entry
  if text.isEmpty then (window.setError "Entrée vide", journal)
  else
    match explainIn window.limits text journal with
    | (.ok explanation, journal) =>
      (window.setResult explanation.value.print (.ofTrace explanation.trace), journal)
    | (.error error, journal) =>
      (window.setError error.message,
        journal.log .warn target fun _ =>
          s!"évaluation refusée pour {String.ofList (quote text)}: {error.message}")

end Window

end ExactCalc
