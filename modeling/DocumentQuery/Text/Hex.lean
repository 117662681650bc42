/-!
# Hexadecimal text

Lower-case digits: a code point without padding, a byte as two digits.
-/

namespace DocumentQuery.Text
set_option autoImplicit false

/-- The hexadecimal digits of a number, without leading zeros. -/
def hex (n : Nat) : List Char := Nat.toDigits 16 n

/-- A byte as two digits. -/
def hexByte (b : UInt8) : List Char :=
  [Nat.digitChar (b.toNat / 16), Nat.digitChar (b.toNat % 16)]

def hexBytes (bytes : List UInt8) : String := String.ofList (bytes.flatMap hexByte)

end DocumentQuery.Text
