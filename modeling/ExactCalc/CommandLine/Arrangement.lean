import ExactCalc.CommandLine.Argument

/-! Putting the switches of a command line before its expressions, so that they may stand anywhere
and an expression may begin with a minus. After a separator everything is an expression. -/

set_option autoImplicit false

namespace ExactCalc.CommandLine

structure Arrangement where
  switches : List Argument := []
  expressions : List Argument := []

namespace Arrangement

def addSwitch (argument : Argument) (arrangement : Arrangement) : Arrangement :=
  { arrangement with switches := argument :: arrangement.switches }

def addExpression (argument : Argument) (arrangement : Arrangement) : Arrangement :=
  { arrangement with expressions := argument :: arrangement.expressions }

/-- Sort arguments. A switch that takes the next argument for its value keeps it, whatever it is;
the first separator that is no such value ends the switches and is dropped. -/
def ofList : List Argument → Arrangement
  | [] => {}
  | .raw bytes :: rest => (ofList rest).addExpression (.raw bytes)
  | .text text :: rest =>
    if text = separator then { expressions := rest }
    else if (namedSwitch? text).isNone then (ofList rest).addExpression (.text text)
    else if expectsValue text then
      match rest with
      | [] => { switches := [.text text] }
      | value :: rest => ((ofList rest).addSwitch value).addSwitch (.text text)
    else (ofList rest).addSwitch (.text text)

end Arrangement

def arrange (arguments : List Argument) : List Argument :=
  let arrangement := Arrangement.ofList arguments.tail
  arguments.take 1 ++ arrangement.switches ++ .text separator :: arrangement.expressions

end ExactCalc.CommandLine
