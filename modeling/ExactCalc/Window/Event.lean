import ExactCalc.Window.State

/-! What happens to a window: commands, frames, clicks and keys.

Each frame hands the focus over to the entry field, after an Escape has been acted on and before
buttons and Enter are. The buttons of the keypad cannot be hit before a first frame has been drawn.
-/

set_option autoImplicit false

namespace ExactCalc

inductive Button where
  | clearEntry
  | clearResults
  | clearAll
  | deleteLast
  | equals
  | insert (symbol : Char)
  deriving DecidableEq

namespace Button

def symbols : List Char := "()+-*/.0123456789".toList

def ofCaption? (caption : String) : Option Button :=
  match caption with
  | "C" => some .clearEntry
  | "CLR" => some .clearResults
  | "AC" => some .clearAll
  | "DEL" => some .deleteLast
  | "=" => some .equals
  | _ => (symbols.find? (·.toString = caption)).map .insert

/-- Whether the button is found on the keypad only: digits, point and DEL. -/
def isOnKeypad : Button → Bool
  | .insert symbol => symbol.isDigit || symbol == '.'
  | .deleteLast => true
  | _ => false

end Button

inductive Key where
  | enter
  | escape
  deriving DecidableEq

inductive Event where
  | setEntry (text : List Char)
  | setDepth (depth : Nat)
  | setError (message : String)
  | clearAll
  | clearEntry
  | deleteLast
  | clearResults
  | frame
  | click (button : Button)
  | press (key : Key)
  | typeDepth (depth : Nat)
  deriving DecidableEq

namespace Window

def draw (window : Window) : Window := { window with focused := false, laidOut := true }

def press (window : Window) (key : Key) (journal : Journal) : Window × Journal :=
  match key with
  | .escape => (window.clearEntry.draw, journal)
  -- The field hears of Enter only in a frame that gives it the focus.
  | .enter =>
    if window.focused then window.draw.evaluate journal else (window.draw, journal)

def hit (window : Window) (button : Button) (journal : Journal) : Window × Journal :=
  match button with
  | .clearEntry => (window.clearEntry, journal)
  | .clearResults => (window.clearResults, journal)
  | .clearAll => (window.clearAll, journal)
  | .deleteLast => (window.deleteLast, journal)
  | .equals => window.evaluate journal
  | .insert symbol => (window.insert symbol, journal)

/-- A click draws frames before it hits the button, if the button has its place by then. -/
def click (window : Window) (button : Button) (journal : Journal) : Window × Journal :=
  if button.isOnKeypad && !window.laidOut then (window.draw, journal)
  else window.draw.hit button journal

/-- Leave the depth field with a number in it; only a change is acted on. -/
def typeDepth (window : Window) (depth : Nat) : Window :=
  let window := window.draw
  if clampDepth depth = window.limits.maxDepth then window else window.setDepth (clampDepth depth)

def handle (window : Window) (event : Event) (journal : Journal) : Window × Journal :=
  match event with
  | .setEntry text => (window.setEntry text, journal)
  | .setDepth depth => (window.setDepth depth, journal)
  | .setError message => (window.setError message, journal)
  | .clearAll => (window.clearAll, journal)
  | .clearEntry => (window.clearEntry, journal)
  | .deleteLast => (window.deleteLast, journal)
  | .clearResults => (window.clearResults, journal)
  | .frame => (window.draw, journal)
  | .click button => window.click button journal
  | .press key => window.press key journal
  | .typeDepth depth => (window.typeDepth depth, journal)

end Window

end ExactCalc
