import ExactCalc.Decimal.Printing

/-! The values stored during one evaluation. Each has an index, which is never used again, and is
shown by its marker. -/

set_option autoImplicit false

namespace ExactCalc

structure Store where
  values : Array Decimal := #[]
  deriving DecidableEq

namespace Store

def marker (index : Nat) : List Char := '#' :: Nat.toDigits 10 index

def size (store : Store) : Nat := store.values.size

def isEmpty (store : Store) : Bool := store.values.isEmpty

def get? (store : Store) (index : Nat) : Option Decimal := store.values[index]?

def toList (store : Store) : List Decimal := store.values.toList

def ofList (values : List Decimal) : Store := ⟨values.toArray⟩

/-- Store a value under the next index, which is the size before. -/
def add (store : Store) (value : Decimal) : Store := ⟨store.values.push value⟩

def print (store : Store) : List Char :=
  if store.isEmpty then "(aucune)".toList
  else
    List.intercalate ", ".toList
      (store.toList.mapIdx fun index value => marker index ++ " = ".toList ++ value.print)

@[simp] theorem toList_ofList (values : List Decimal) : (ofList values).toList = values := rfl

@[simp] theorem toList_add (store : Store) (value : Decimal) :
    (store.add value).toList = store.toList ++ [value] := by
  simp [toList, add]

theorem size_eq_length (store : Store) : store.size = store.toList.length := rfl

theorem get?_eq_getElem? (store : Store) (index : Nat) :
    store.get? index = store.toList[index]? := by
  simp [get?, toList]

end Store

end ExactCalc
