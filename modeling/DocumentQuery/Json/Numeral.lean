import DocumentQuery.Binary64.Scaled

/-!
# Decimal numerals

A numeral is kept as a significand of 64 bits and an exponent of ten. Digits go into the
significand as long as it has room for them. Of the digits behind those, the ones before the
point keep their places, as zeros, and the ones after it are dropped.
-/

namespace DocumentQuery.Json
set_option autoImplicit false

/-- The decimal `significand * 10 ^ exponent`. -/
structure Numeral where
  significand : UInt64
  exponent : Int
  deriving DecidableEq

namespace Numeral

/-- The value of a decimal digit. -/
def digitValue (c : Char) : Nat := c.toNat - '0'.toNat

/-- A significand with one more digit, if there is room for it. -/
def append? (significand : UInt64) (c : Char) : Option UInt64 :=
  let n := 10 * significand.toNat + digitValue c
  if n < UInt64.size then some (UInt64.ofNat n) else none

/-- A significand continued by digits before the point. -/
def ofWhole (significand : UInt64) : List Char → Numeral
  | [] => ⟨significand, 0⟩
  | c :: cs =>
    match append? significand c with
    | some more => ofWhole more cs
    | none => ⟨significand, cs.length + 1⟩

/-- A numeral continued by digits after the point. -/
def addFraction (n : Numeral) : List Char → Numeral
  | [] => n
  | c :: cs =>
    match append? n.significand c with
    | some more => addFraction ⟨more, n.exponent - 1⟩ cs
    | none => n

/-- The numeral of the digits before and after the point. -/
def ofDigits (whole fraction : List Char) : Numeral := (ofWhole 0 whole).addFraction fraction

/-- The integer that a numeral stands for with its sign, when it needs no power of ten and fits
64 bits. A zero with a sign does not count as an integer. -/
def integer? (negative : Bool) (n : Numeral) : Option Int :=
  if n.exponent ≠ 0 then none
  else if !negative then some n.significand.toNat
  else if 0 < n.significand ∧ n.significand.toNat ≤ Nat.pow 2 63 then
    some (-(n.significand.toNat : Int))
  else none

end Numeral

end DocumentQuery.Json
