/-! Text without what would command a terminal.

Control sequences are followed as a terminal follows them, and left out. Outside of them the
controls are left out too, except those that only move on in the text. A blank control inside a
sequence is kept and interrupts it: what follows is kept as text up to the next control that is
left out, where the sequence goes on, unless a character beyond ASCII has ended it.
-/

set_option autoImplicit false

namespace ExactCalc

inductive TerminalState where
  | text
  | escape
  /-- In an escape sequence that waits for its last character. -/
  | escapeOpen
  /-- In a sequence with parameters, which a letter or the like ends. -/
  | control
  /-- At the head of a string for the device: its start, in its parameters, after them. -/
  | deviceStart
  | deviceParameters
  | deviceOpen
  | string
  /-- In a string that the bell ends too. -/
  | command
  deriving DecidableEq

def isWithin (first last : Char) (c : Char) : Bool := first ≤ c && c ≤ last

def isBlankControl (c : Char) : Bool := c == '\t' || c == '\n' || c == '\x0c' || c == '\r'

/-- Whether a character holds the byte that ends a string without an escape. -/
def holdsTerminator (c : Char) : Bool := (String.utf8EncodeChar c).contains 0x9C

namespace TerminalState

def afterEscape (c : Char) : TerminalState :=
  if c = '[' then .control
  else if c = ']' then .command
  else if c = 'P' then .deviceStart
  else if c = 'X' ∨ c = '^' ∨ c = '_' then .string
  else if isWithin ' ' '/' c then .escapeOpen
  else if isWithin '0' '~' c then .text
  else .escape

/-- The state after one more character. Three controls end whatever sequence there is: the escape
begins another, cancelling and substituting go back to the text. -/
def next (state : TerminalState) (c : Char) : TerminalState :=
  if c = '\x1b' then .escape
  else if c = '\x18' ∨ c = '\x1a' then .text
  else match state with
  | .text => .text
  | .escape => afterEscape c
  | .escapeOpen => if isWithin '0' '~' c then .text else .escapeOpen
  | .control => if isWithin '@' '~' c then .text else .control
  | .deviceStart =>
    if isWithin '@' '~' c then .string
    else if isWithin ' ' '/' c then .deviceOpen
    else if isWithin '0' '?' c then .deviceParameters
    else .deviceStart
  | .deviceParameters =>
    if isWithin '<' '~' c then .string
    else if isWithin ' ' '/' c then .deviceOpen
    else .deviceParameters
  | .deviceOpen => if isWithin '0' '~' c then .string else .deviceOpen
  | .string => if holdsTerminator c then .text else .string
  | .command => if c = '\x07' then .text else .command

def keeps (state : TerminalState) (c : Char) : Bool :=
  match state with
  | .text => isBlankControl c || isWithin ' ' '~' c || '\x7f' < c
  | .escape | .escapeOpen | .control => isBlankControl c
  | _ => false

end TerminalState

/-- The text without controls, read on from a state; the flag tells whether the character before
was kept. -/
def plainFrom (state : TerminalState) (keeping : Bool) : List Char → List Char
  | [] => []
  | c :: rest =>
    -- A sequence that was interrupted goes on later, unless the kept character is beyond ASCII.
    if keeping && TerminalState.text.keeps c then
      c :: plainFrom (if '\x7f' < c then .text else state) true rest
    else if state.keeps c then c :: plainFrom (state.next c) true rest
    else plainFrom (state.next c) false rest

def plain (text : List Char) : List Char := plainFrom .text true text

end ExactCalc
