import DocumentQuery.Binary64

/-!
# The number nearest to a quotient

`ofRatio num den` rounds the quotient of two natural numbers to the nearest number, halves to the
even neighbour. The quotient itself is never rounded before, and one beyond the largest finite
number goes to infinity.
-/

namespace DocumentQuery.Binary64
set_option autoImplicit false

/-- The integer nearest to `num / den`, halves to the even one. -/
def roundDiv (num den : Nat) : Nat :=
  let down := num / den
  let rest := 2 * (num % den)
  if den < rest || rest == den && down % 2 == 1 then down + 1 else down

/-- `num / den` in units of `2 ^ (shift - 1074)`. -/
def inUnits (num den shift : Nat) : Nat × Nat :=
  if 1074 ≤ shift then (num, den * Nat.pow 2 (shift - 1074))
  else (num * Nat.pow 2 (1074 - shift), den)

/-- The magnitude bits of infinity. -/
def infinityBits : Nat := 2047 * Nat.pow 2 52

/-- The magnitude bits of the number nearest to `num / den`. The unit is chosen so that the
rounded quotient has 53 bits, or is the smallest one; a carry out of the 53 bits lands in the
exponent, where it belongs. -/
def magnitudeOfRatio (num den : Nat) : Nat :=
  if num = 0 then 0
  else
    let above := num.log2 + 1074 - (den.log2 + 53)
    let shift :=
      let (n, d) := inUnits num den above
      if n / d < Nat.pow 2 53 then above else above + 1
    let (n, d) := inUnits num den shift
    min (shift * Nat.pow 2 52 + roundDiv n d) infinityBits

/-- The number nearest to `num / den`. -/
def ofRatio (num den : Nat) : Binary64 := ofMagnitude false (magnitudeOfRatio num den)

/-- The number nearest to a natural number. -/
def ofNat (n : Nat) : Binary64 := ofRatio n 1

/-- The number nearest to an integer. -/
def ofInt (n : Int) : Binary64 := ofMagnitude (n < 0) (magnitudeOfRatio n.natAbs 1)

end DocumentQuery.Binary64
