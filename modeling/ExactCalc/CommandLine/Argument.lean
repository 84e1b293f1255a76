/-! Arguments of a command line and the switches among them. -/

set_option autoImplicit false

namespace ExactCalc.CommandLine

/-- An argument as the system hands it over: a text, or bytes that are not the UTF-8 form of one. -/
inductive Argument where
  | text (characters : List Char)
  | raw (bytes : List UInt8)
  deriving DecidableEq

def Argument.ofBytes (bytes : ByteArray) : Argument :=
  match String.fromUTF8? bytes with
  | some string => .text string.toList
  | none => .raw bytes.toList

inductive Switch where
  | maxDepth
  | maxLength
  | explain
  | help
  | version
  deriving DecidableEq

namespace Switch

def all : List Switch := [.maxDepth, .maxLength, .explain, .help, .version]

def longName : Switch → List Char
  | .maxDepth => "profondeur-max".toList
  | .maxLength => "longueur-max".toList
  | .explain => "demarche".toList
  | .help => "help".toList
  | .version => "version".toList

def shortName : Switch → Option Char
  | .maxDepth | .maxLength => none
  | .explain => some 'd'
  | .help => some 'h'
  | .version => some 'V'

def takesValue : Switch → Bool
  | .maxDepth | .maxLength => true
  | .explain | .help | .version => false

def ofLong? (name : List Char) : Option Switch := all.find? (·.longName = name)

def ofShort? (name : Char) : Option Switch := all.find? (·.shortName = some name)

end Switch

def separator : List Char := ['-', '-']

def splitValue (text : List Char) : List Char × Option (List Char) :=
  match text.dropWhile (· != '=') with
  | [] => (text, none)
  | _ :: value => (text.takeWhile (· != '='), some value)

/-- The switch that a whole argument names, by its long name or by its short one, whether or not a
value is attached to it. -/
def namedSwitch? (text : List Char) : Option Switch :=
  match (splitValue text).1 with
  | '-' :: '-' :: name => Switch.ofLong? name
  | ['-', name] => Switch.ofShort? name
  | _ => none

def expectsValue (text : List Char) : Bool :=
  match namedSwitch? text, (splitValue text).2 with
  | some switch, none => switch.takesValue
  | _, _ => false

end ExactCalc.CommandLine
