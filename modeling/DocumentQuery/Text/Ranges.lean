/-!
# Ranges of code points

A class of characters is kept as the ranges of code points that make it up.
-/

namespace DocumentQuery.Text
set_option autoImplicit false

/-- Whether a code point lies in one of the ranges, each given by its first and its last. -/
def covers (ranges : List (Nat × Nat)) (c : Char) : Bool :=
  ranges.any fun range => range.1 ≤ c.toNat && c.toNat ≤ range.2

end DocumentQuery.Text
