import ExactCalc.Text.Invisible

/-! A text between double quotes, in which each character can be seen. -/

set_option autoImplicit false

namespace ExactCalc

def codePointEscape (c : Char) : List Char :=
  ['\\', 'u', '\x7b'] ++ Nat.toDigits 16 c.toNat ++ ['\x7d']

def quoteChar (c : Char) : List Char :=
  match c with
  | '"' => ['\\', '"']
  | '\\' => ['\\', '\\']
  | '\t' => ['\\', 't']
  | '\n' => ['\\', 'n']
  | '\r' => ['\\', 'r']
  | '\x00' => ['\\', '0']
  | c => if isInvisible c then codePointEscape c else [c]

def quote (text : List Char) : List Char := '"' :: text.flatMap quoteChar ++ ['"']

end ExactCalc
