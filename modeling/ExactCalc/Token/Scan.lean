import ExactCalc.Error
import ExactCalc.Token

/-! Cutting a text into tokens. Runs of digits and points are literals, each other character of
the alphabet is a symbol, and there are no blanks. -/

set_option autoImplicit false

namespace ExactCalc

def Symbol.ofChar? : Char → Option Symbol
  | '+' => some (.operator .add)
  | '-' => some (.operator .sub)
  | '*' => some (.operator .mul)
  | '/' => some (.operator .div)
  | '(' => some .opening
  | ')' => some .closing
  | _ => none

namespace Token

def isLiteralChar (c : Char) : Bool := c.isDigit || c == '.'

def inAlphabet (c : Char) : Bool := isLiteralChar c || (Symbol.ofChar? c).isSome

/-- Put a character before symbols; a digit or a point joins the literal it touches. -/
def prepend (c : Char) (symbols : List Symbol) : List Symbol :=
  match Symbol.ofChar? c, symbols with
  | some symbol, _ => symbol :: symbols
  | none, .number lexeme :: rest => .number (c :: lexeme) :: rest
  | none, _ => .number [c] :: symbols

def symbols (text : List Char) : List Symbol := text.foldr prepend []

def placeFrom (position : Nat) : List Symbol → List Token
  | [] => []
  | symbol :: rest => ⟨symbol, position⟩ :: placeFrom (position + byteLength symbol.text) rest

/-- The tokens of a text. The first character outside the alphabet refuses it. -/
def scan (text : List Char) : Except EvalError (List Token) :=
  match text.dropWhile inAlphabet with
  | [] => .ok (placeFrom 0 (symbols text))
  | foreign :: _ =>
    .error (.unexpectedCharacter foreign (byteLength (text.takeWhile inAlphabet)))

end Token

end ExactCalc
