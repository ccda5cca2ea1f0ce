/-!
# The shortest decimal inside an interval

A binary number is printed with the fewest decimal digits that read back as the same number.  The
numbers that read back form an interval around the value, so the question is which decimal grid
`10 ^ g` is the coarsest one with a point inside.  On each grid only the two neighbours of the value
have to be tried: if any point of the grid lies inside, then so does one of those two.

Everything is computed exactly, over a common denominator.
-/

namespace ShaderTypes.Decimal

/-- An interval of rationals around a value, all three over the denominator `unit`. -/
structure Interval where
  /-- The lower end. -/
  low : Nat
  /-- The value inside. -/
  value : Nat
  /-- The upper end. -/
  high : Nat
  /-- The common denominator. -/
  unit : Nat
  /-- Whether the two ends belong to the interval. -/
  closed : Bool

namespace Interval

/-- The interval divided by `10 ^ grid`: its integers are the points of that grid. -/
def onGrid (i : Interval) (grid : Int) : Interval :=
  let up := Nat.pow 10 (-grid).toNat
  let down := Nat.pow 10 grid.toNat
  { i with low := i.low * up, value := i.value * up, high := i.high * up, unit := i.unit * down }

/-- Whether an integer lies in the interval. -/
def contains (i : Interval) (n : Nat) : Bool :=
  if i.closed then i.low ≤ n * i.unit && n * i.unit ≤ i.high
  else i.low < n * i.unit && n * i.unit < i.high

/-- The integer of the interval that is nearest to the value, the larger one of two that are
equally near. -/
def nearest? (i : Interval) : Option Nat :=
  let below := i.value / i.unit
  match i.contains below, i.contains (below + 1) with
  | true, true => if 2 * i.value < (2 * below + 1) * i.unit then some below else some (below + 1)
  | true, false => some below
  | false, true => some (below + 1)
  | false, false => none

/-- What `nearest?` finds lies in the interval. -/
theorem contains_of_nearest? {i : Interval} {n : Nat} (h : i.nearest? = some n) :
    i.contains n = true := by
  unfold nearest? at h
  grind

/-- The number of places before the point: the least `p` with `value < 10 ^ p`. -/
def places (i : Interval) : Int :=
  if i.unit ≤ i.value then (Nat.toDigits 10 (i.value / i.unit)).length
  else 1 - (Nat.toDigits 10 ((i.unit + i.value - 1) / i.value - 1)).length

end Interval

/-- The decimal `coefficient * 10 ^ exponent`. -/
structure Number where
  /-- The digits, as a natural number. -/
  coefficient : Nat
  /-- The power of ten that the last digit counts. -/
  exponent : Int

/-- The decimal of at most `digits` digits in the interval, of the fewest digits possible. -/
def shortest? (i : Interval) (digits : Nat) : Option Number :=
  (List.range digits).findSome? fun k : Nat =>
    let grid := i.places - (k + 1)
    (i.onGrid grid).nearest?.map fun n => ⟨n, grid⟩

end ShaderTypes.Decimal
