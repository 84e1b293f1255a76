/-! What an evaluation accepts to work on. -/

set_option autoImplicit false

namespace ExactCalc

namespace Limits

def defaultDepth : Nat := 256

def defaultLength : Nat := 100000

end Limits

structure Limits where
  maxDepth : Nat := Limits.defaultDepth
  /-- The longest expression, in bytes. -/
  maxLength : Nat := Limits.defaultLength
  deriving DecidableEq

namespace Limits

/-- No setting allows a deeper nesting than this. -/
def depthCeiling : Nat := 1024

def withMaxDepth (limits : Limits) (depth : Nat) : Limits :=
  { limits with maxDepth := min depth depthCeiling }

def withMaxLength (limits : Limits) (length : Nat) : Limits :=
  { limits with maxLength := length }

def effectiveDepth (limits : Limits) : Nat := min limits.maxDepth depthCeiling

end Limits

end ExactCalc
