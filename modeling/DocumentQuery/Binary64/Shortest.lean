import DocumentQuery.Binary64

/-!
# The shortest decimal of a number

The decimals that read back as a finite number are those of its rounding interval, which
reaches half way to each neighbour; its ends belong to it when the significand is even, since
halves go to the even neighbour. `shortest` takes the coarsest grid `10 ^ k` that has a point in
the interval, and of two such points the one nearer to the number.
-/

namespace DocumentQuery
set_option autoImplicit false

/-- The decimal `digits * 10 ^ exponent`. -/
structure Decimal where
  digits : Nat
  exponent : Int
  deriving DecidableEq

/-- Which of two equally near decimals is taken. -/
inductive Tie where
  | up
  | even
  deriving DecidableEq

namespace Binary64

/-- A number and the ends of its rounding interval, as multiples of `1 / unit`. -/
structure Interval where
  low : Nat
  value : Nat
  high : Nat
  unit : Nat
  closed : Bool

/-- The rounding interval of a finite number. Below a power of two the numbers lie twice as
dense, so there the lower end is nearer. -/
def interval (x : Binary64) : Interval :=
  let below := if x.fraction = 0 ∧ 1 < x.exponentField then 1 else 2
  let up := Nat.pow 2 (x.scale - 1077)
  { low := (4 * x.significand - below) * up
    value := 4 * x.significand * up
    high := (4 * x.significand + 2) * up
    unit := Nat.pow 2 (1077 - x.scale)
    closed := x.significand % 2 == 0 }

namespace Interval

/-- The same interval with `10 ^ k` as the unit of length. -/
def onGrid (i : Interval) (k : Int) : Interval :=
  let shrink := Nat.pow 10 (-k).toNat
  { i with low := i.low * shrink, value := i.value * shrink, high := i.high * shrink
           unit := i.unit * Nat.pow 10 k.toNat }

/-- Whether the integer `n` lies in the interval. -/
def holds (i : Interval) (n : Nat) : Bool :=
  if i.closed then i.low ≤ n * i.unit && n * i.unit ≤ i.high
  else i.low < n * i.unit && n * i.unit < i.high

/-- The integer of the interval that is nearest to the value, if there is one. -/
def nearestInteger? (tie : Tie) (i : Interval) : Option Nat :=
  let down := i.value / i.unit
  let rest := 2 * (i.value % i.unit)
  let upper : Bool := match tie with
    | .up => i.unit ≤ rest
    | .even => i.unit < rest || rest == i.unit && down % 2 == 1
  match i.holds down, i.holds (down + 1) with
  | true, true => some (if upper then down + 1 else down)
  | true, false => some down
  | false, true => some (down + 1)
  | false, false => none

/-- The point of the coarsest grid with one in the interval, from `10 ^ k` on downwards through
at most `steps` further grids. -/
def coarsest (tie : Tie) (i : Interval) : Nat → Int → Decimal
  | 0, k => ⟨i.value, k⟩
  | steps + 1, k =>
    match (i.onGrid k).nearestInteger? tie with
    | some n => ⟨n, k⟩
    | none => coarsest tie i steps (k - 1)

end Interval

/-- The shortest decimal that reads back as the finite number `x ≠ 0`, without its sign. The
grid of the first power of ten above the number is coarse enough to start from, and 1100 steps
down is finer than every interval. -/
def shortest (tie : Tie) (x : Binary64) : Decimal :=
  let i := x.interval
  i.coarsest tie 1100 (Nat.toDigits 10 (i.value / i.unit)).length

end Binary64

end DocumentQuery
