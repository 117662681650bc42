import DocumentQuery.DocumentError

/-!
# Limits and offsets

How many rows a statement takes at most, and how many it passes over first. A limit is positive,
an offset may be zero; any number that denotes the integer will do.
-/

namespace DocumentQuery
set_option autoImplicit false

/-- The greatest number of rows to take; none is no limit. -/
structure Limit where
  rows : Option Nat
  deriving DecidableEq, Inhabited

/-- The number of rows to pass over. -/
structure Offset where
  rows : Option Nat
  deriving DecidableEq, Inhabited

/-- The integer that a value denotes, as a row count of at least `least`. -/
def Value.rowCount? (least : Nat) (v : Value) : Option Nat :=
  v.integer?.bind fun n => if (least : Int) ≤ n then some n.toNat else none

def Limit.ofValue (v : Value) : Except DocumentError Limit :=
  if v.isNull then .ok ⟨none⟩
  else
    match v.rowCount? 1 with
    | some n => .ok ⟨some n⟩
    | none => .error (.limit v.described)

def Offset.ofValue (v : Value) : Except DocumentError Offset :=
  if v.isNull then .ok ⟨none⟩
  else
    match v.rowCount? 0 with
    | some n => .ok ⟨some n⟩
    | none => .error (.offset v.described)

end DocumentQuery
