import DocumentQuery.Binary64.Shortest

/-!
# Decimal text of a number

Two layouts of the shortest digits. `toText` is positional whatever the size and writes an
integer without a point. `toPointedText` always shows that the number is not an integer type: it
keeps `.0`, and turns to an exponent for very large and very small numbers.
-/

namespace DocumentQuery
set_option autoImplicit false

namespace Decimal

def zeros (n : Nat) : String := String.ofList (List.replicate n '0')

/-- The digits, first digit first. -/
def digitText (d : Decimal) : String := toString d.digits

/-- How many digits stand before the point; not positive if the first one comes after it. -/
def pointAt (d : Decimal) : Int := d.digitText.length + d.exponent

/-- All digits in their places. `whole` follows the digits of an integer. -/
def positional (whole : String) (d : Decimal) : String :=
  if 0 ≤ d.exponent then
    d.digitText ++ zeros d.exponent.toNat ++ whole
  else if 0 < d.pointAt then
    let ds := d.digitText.toList
    String.ofList (ds.take d.pointAt.toNat) ++ "." ++ String.ofList (ds.drop d.pointAt.toNat)
  else
    "0." ++ zeros (-d.pointAt).toNat ++ d.digitText

/-- One digit before the point, then the power of ten with its sign. -/
def scientific (d : Decimal) : String :=
  let ds := d.digitText.toList
  let point := if ds.length = 1 then "" else "."
  let sign := if d.pointAt ≤ 0 then "" else "+"
  String.ofList (ds.take 1) ++ point ++ String.ofList (ds.drop 1) ++ "e" ++ sign ++
    toString (d.pointAt - 1)

end Decimal

namespace Binary64

def signText (x : Binary64) : String := if x.isNegative then "-" else ""

/-- The shortest digits in their places, with no exponent and no point behind an integer; of two
equally near decimals the greater magnitude. -/
def toText (x : Binary64) : String :=
  if x.isNaN then "NaN"
  else if !x.isFinite then x.signText ++ "inf"
  else if x.isZero then x.signText ++ "0"
  else x.signText ++ (x.shortest .up).positional ""

/-- The shortest digits of a finite number, positional from `1e-5` to below `1e16` and with an
exponent elsewhere; an integer ends in `.0`. -/
def toPointedText (x : Binary64) : String :=
  if x.isZero then x.signText ++ "0.0"
  else
    let d := x.shortest .even
    x.signText ++ if -5 < d.pointAt ∧ d.pointAt ≤ 16 then d.positional ".0" else d.scientific

end Binary64

end DocumentQuery
