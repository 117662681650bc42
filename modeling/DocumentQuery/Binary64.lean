/-!
# Floating-point numbers of 64 bits

A number is its IEEE 754 encoding. What it stands for is read off the encoding in natural
numbers: a finite one has the magnitude `significand * 2 ^ (scale - 1075)`, so every question
about it (is it an integer, which decimals lie next to it) is exact arithmetic.
-/

namespace DocumentQuery
set_option autoImplicit false

/-- A floating-point number of 64 bits, given by its encoding. -/
structure Binary64 where
  bits : UInt64
  deriving DecidableEq, Inhabited

namespace Binary64

/-- The sign bit; zeros and NaNs have one too. -/
def isNegative (x : Binary64) : Bool := Nat.pow 2 63 ≤ x.bits.toNat

/-- The eleven bits of the biased exponent. -/
def exponentField (x : Binary64) : Nat := x.bits.toNat / Nat.pow 2 52 % Nat.pow 2 11

/-- The fifty-two bits after the binary point. -/
def fraction (x : Binary64) : Nat := x.bits.toNat % Nat.pow 2 52

def isFinite (x : Binary64) : Bool := x.exponentField != 2047

def isNaN (x : Binary64) : Bool := x.exponentField == 2047 && x.fraction != 0

/-- The magnitude in units of `2 ^ (scale - 1075)`; subnormal numbers lack the leading one. -/
def significand (x : Binary64) : Nat :=
  if x.exponentField = 0 then x.fraction else Nat.pow 2 52 + x.fraction

/-- The exponent of the unit of the significand, counted from `2 ^ (-1075)`. -/
def scale (x : Binary64) : Nat := max x.exponentField 1

def isZero (x : Binary64) : Bool := x.isFinite && x.significand == 0

/-- The magnitude of a finite number as a natural number, when it is one. -/
def wholeMagnitude? (x : Binary64) : Option Nat :=
  if 1075 ≤ x.scale then
    some (x.significand * Nat.pow 2 (x.scale - 1075))
  else if x.significand % Nat.pow 2 (1075 - x.scale) = 0 then
    some (x.significand / Nat.pow 2 (1075 - x.scale))
  else
    none

/-- The integer that a number denotes, when it denotes one. -/
def toInt? (x : Binary64) : Option Int :=
  if x.isFinite then
    x.wholeMagnitude?.map fun n => if x.isNegative then -(n : Int) else n
  else
    none

/-- Equality as numbers: the zeros are equal, a NaN differs from everything. -/
def numEq (x y : Binary64) : Bool :=
  !x.isNaN && !y.isNaN && (x == y || x.isZero && y.isZero)

/-- The number of the given sign whose encoding has the magnitude bits `n`. -/
def ofMagnitude (negative : Bool) (n : Nat) : Binary64 :=
  ⟨UInt64.ofNat (if negative then Nat.pow 2 63 + n else n)⟩

end Binary64

end DocumentQuery
