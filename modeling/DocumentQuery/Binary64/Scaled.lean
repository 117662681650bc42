import DocumentQuery.Binary64.Nearest

/-!
# Integers scaled by a power of ten

`scaled? negative n e` is the number that stands for `n * 10 ^ e` when a decimal is worked out in
floating point: the integer and the power of ten are each rounded to a number, and so is their
product or quotient. It lies close to the decimal but need not be the number nearest to it.
-/

namespace DocumentQuery.Binary64
set_option autoImplicit false

/-- The magnitude of a finite number as a quotient of natural numbers. -/
def ratio (x : Binary64) : Nat × Nat :=
  (x.significand * Nat.pow 2 (x.scale - 1075), Nat.pow 2 (1075 - x.scale))

/-- The product of the magnitudes of two finite numbers, rounded. -/
def mulMagnitude (x y : Binary64) : Binary64 :=
  ofRatio (x.ratio.1 * y.ratio.1) (x.ratio.2 * y.ratio.2)

/-- The quotient of the magnitudes of two finite numbers, rounded. -/
def divMagnitude (x y : Binary64) : Binary64 :=
  ofRatio (x.ratio.1 * y.ratio.2) (x.ratio.2 * y.ratio.1)

/-- The exponent of the greatest power of ten within the range of numbers. -/
def maxTenExponent : Nat := 308

/-- The number nearest to a power of ten. -/
def tenPower (n : Nat) : Binary64 := ofNat (Nat.pow 10 n)

/-- The magnitude over `10 ^ n`. A power that is out of range is divided by in two steps; one for
which two steps do not suffice leaves nothing of a number below `10 ^ 292`. -/
def overTenPower (x : Binary64) (n : Nat) : Binary64 :=
  if n ≤ maxTenExponent then x.divMagnitude (tenPower n)
  else if n ≤ 2 * maxTenExponent then
    (x.divMagnitude (tenPower maxTenExponent)).divMagnitude (tenPower (n - maxTenExponent))
  else ofNat 0

/-- The number for `± significand * 10 ^ exponent`; none if it is out of range. -/
def scaled? (negative : Bool) (significand : UInt64) (exponent : Int) : Option Binary64 :=
  let x := ofNat significand.toNat
  if significand = 0 then some (ofMagnitude negative 0)
  else if exponent < 0 then
    some (ofMagnitude negative (x.overTenPower (-exponent).toNat).bits.toNat)
  else if maxTenExponent < exponent then none
  else
    let product := x.mulMagnitude (tenPower exponent.toNat)
    if product.isFinite then some (ofMagnitude negative product.bits.toNat) else none

end DocumentQuery.Binary64
