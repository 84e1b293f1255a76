import ExactCalc.CommandLine.Arrangement
import ExactCalc.Limits
import ExactCalc.Text.Digits

/-! Reading the settings of a run from its arguments, once arranged.

A switch may occur once. The value of a switch may be attached to it or be the next argument, which
is looked at only when the following switch, expression or the end is reached. What looks like a
switch but is none, and everything after it, is an expression.
-/

set_option autoImplicit false

namespace ExactCalc.CommandLine

structure Settings where
  maxDepth : Nat := Limits.defaultDepth
  maxLength : Nat := Limits.defaultLength
  explained : Bool := false
  expressions : List (List Char) := []
  deriving DecidableEq

def Settings.limits (settings : Settings) : Limits :=
  (({} : Limits).withMaxDepth settings.maxDepth).withMaxLength settings.maxLength

/-- Why arguments give no settings: a text is asked for instead, or they are misused. -/
inductive Refusal where
  | help
  | version
  | missingValue (switch : Switch)
  | badValue (switch : Switch) (value : List Char)
  | repeated (switch : Switch)
  | needlessValue (switch : Switch)
  | notText (bytes : List UInt8)
  deriving DecidableEq

def Refusal.exitCode : Refusal → Nat
  | .help | .version => 0
  | _ => 2

def Refusal.message : Refusal → String
  | .help => "help requested"
  | .version => "version requested"
  | .missingValue switch => s!"error: a value is required for '{name switch}'"
  | .badValue switch value => s!"error: invalid value '{String.ofList value}' for '{name switch}'"
  | .repeated switch => s!"error: '{name switch}' cannot be used more than once"
  | .needlessValue switch => s!"error: unexpected value for '{name switch}'"
  | .notText _ => "error: an argument is not valid UTF-8"
where
  name (switch : Switch) : String := "--" ++ String.ofList switch.longName

def countBound : Nat := Nat.pow 2 64

def readCount? (text : List Char) : Option Nat :=
  let digits := match text with
    | '+' :: rest => rest
    | _ => text
  if digits.isEmpty || !digits.all Char.isDigit then none
  else if digitsValue digits < countBound then some (digitsValue digits)
  else none

inductive Reading where
  | separator
  | long (switch : Switch) (value : Option (List Char))
  | short (switches : List Switch)
  | plain

def Reading.ofText (text : List Char) : Reading :=
  match text with
  | ['-', '-'] => .separator
  | '-' :: '-' :: rest =>
    let (name, value) := splitValue rest
    match Switch.ofLong? name with
    | some switch => .long switch value
    | none => .plain
  | '-' :: name :: names =>
    match (name :: names).mapM Switch.ofShort? with
    | some switches => .short switches
    | none => .plain
  | _ => .plain

/-- A switch that was met without its value attached, and the value if it has come. -/
structure Pending where
  switch : Switch
  value : Option (List Char) := none

structure Intake where
  maxDepth : Option Nat := none
  maxLength : Option Nat := none
  explained : Bool := false
  pending : Option Pending := none
  /-- Whether only expressions can follow. -/
  closed : Bool := false
  /-- Latest first. -/
  expressions : List (List Char) := []

namespace Intake

def has (intake : Intake) : Switch → Bool
  | .maxDepth => intake.maxDepth.isSome
  | .maxLength => intake.maxLength.isSome
  | .explain => intake.explained
  | .help | .version => false

def checkNew (intake : Intake) (switch : Switch) : Except Refusal Unit :=
  if intake.has switch then .error (.repeated switch) else .ok ()

def assign (intake : Intake) (switch : Switch) (value : List Char) : Except Refusal Intake := do
  intake.checkNew switch
  match readCount? value, switch with
  | none, _ => .error (.badValue switch value)
  | some count, .maxDepth => return { intake with maxDepth := some count }
  | some count, .maxLength => return { intake with maxLength := some count }
  | some _, _ => .error (.needlessValue switch)

def settle (intake : Intake) : Except Refusal Intake :=
  match intake.pending with
  | none => .ok intake
  | some ⟨switch, none⟩ => .error (.missingValue switch)
  | some ⟨switch, some value⟩ => assign { intake with pending := none } switch value

/-- A switch that stands without a value. -/
def raise (intake : Intake) (switch : Switch) : Except Refusal Intake := do
  -- The switch before may still wait for its value, or have one that was not looked at yet.
  let intake ← intake.settle
  match switch with
  | .help => .error .help
  | .version => .error .version
  | .explain => do
    intake.checkNew .explain
    return { intake with explained := true }
  | .maxDepth | .maxLength => return { intake with pending := some ⟨switch, none⟩ }

def addExpression (intake : Intake) (text : List Char) : Except Refusal Intake := do
  let intake ← intake.settle
  return { intake with closed := true, expressions := text :: intake.expressions }

def addText (intake : Intake) (text : List Char) : Except Refusal Intake :=
  if intake.closed then intake.addExpression text
  else
    match Reading.ofText text with
    | .separator => .ok { intake with closed := true }
    | .long switch none => intake.raise switch
    | .long switch (some value) =>
      if switch.takesValue then do
        let intake ← intake.settle
        intake.assign switch value
      else .error (.needlessValue switch)
    | .short switches => switches.foldlM raise intake
    | .plain =>
      match intake.pending with
      -- A switch that waits takes whatever is no switch, also what begins with a minus.
      | some ⟨switch, none⟩ => .ok { intake with pending := some ⟨switch, some text⟩ }
      | _ => intake.addExpression text

def add (intake : Intake) : Argument → Except Refusal Intake
  | .text text => intake.addText text
  | .raw bytes => .error (.notText bytes)

def finish (intake : Intake) : Except Refusal Settings := do
  let intake ← intake.settle
  return {
    maxDepth := intake.maxDepth.getD Limits.defaultDepth
    maxLength := intake.maxLength.getD Limits.defaultLength
    explained := intake.explained
    expressions := intake.expressions.reverse }

end Intake

def Settings.read (arguments : List Argument) : Except Refusal Settings := do
  let intake ← arguments.tail.foldlM Intake.add {}
  intake.finish

def Settings.ofArguments (arguments : List Argument) : Except Refusal Settings :=
  Settings.read (arrange arguments)

end ExactCalc.CommandLine
