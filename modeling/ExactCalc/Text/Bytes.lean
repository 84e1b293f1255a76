/-! Texts are lists of characters; lengths and positions count bytes of their UTF-8 form. -/

set_option autoImplicit false

namespace ExactCalc

def byteLength (text : List Char) : Nat := text.foldr (fun c length => c.utf8Size + length) 0

@[simp] theorem byteLength_nil : byteLength [] = 0 := rfl

@[simp] theorem byteLength_cons (c : Char) (text : List Char) :
    byteLength (c :: text) = c.utf8Size + byteLength text := rfl

@[simp] theorem byteLength_append (first rest : List Char) :
    byteLength (first ++ rest) = byteLength first + byteLength rest := by
  induction first with
  | nil => simp
  | cons c first ih => simp [ih, Nat.add_assoc]

end ExactCalc
