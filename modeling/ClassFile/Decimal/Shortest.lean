import ClassFile.Decimal.Binary

/-!
# The shortest decimal of a floating-point number

A number of a binary format owns an interval of reals: those that round to
it. A decimal inside the interval identifies the number, and the coarsest
decimal grid that has a point in the interval gives the shortest such text.
If a grid has a point in the interval at all, then one of the two
neighbours of the number on that grid lies in it, so only these two are
ever looked at.

Everything is counted in one unit, a power of ten so small that the number
and both ends of its interval are whole; on the grid of that unit the
number itself is a point, so the search always ends.
-/

namespace ClassFile

/-- A decimal number: a natural number of units of a power of ten. -/
structure Decimal where
  units : Nat
  exponent : Int
  deriving DecidableEq, Repr

/-- **The interval of a number,** in units of ten to the power `exponent`.
The ends belong to it when `closed` holds, which is the case when the
significand is even, for then a tie is rounded to it. -/
structure RoundingInterval where
  low : Nat
  value : Nat
  high : Nat
  closed : Bool
  exponent : Int
  deriving DecidableEq, Repr

namespace RoundingInterval

/-- The interval of `significand * 2 ^ exponent`, counted in quarters of the
last place: half a place to each side, but only a quarter below the least
normal significand, where the numbers below lie twice as close. -/
def of (f : FloatFormat) (significand : Nat) (exponent : Int) : RoundingInterval :=
  let below := if significand = f.leastNormal then 1 else 2
  let scale :=
    if exponent < 2 then Nat.pow 5 (2 - exponent).toNat else Nat.pow 2 (exponent - 2).toNat
  { low := (4 * significand - below) * scale
    value := 4 * significand * scale
    high := (4 * significand + 2) * scale
    closed := significand % 2 == 0
    exponent := min (exponent - 2) 0 }

/-- Whether a whole number of units lies in the interval. -/
def contains (i : RoundingInterval) (x : Nat) : Bool :=
  if i.closed then i.low ≤ x && x ≤ i.high else i.low < x && x < i.high

/-- The point of the grid of multiples of `step` that stands for the value,
as a multiple: the neighbour that lies in the interval, the nearer one if
both do, and of two that are equally near the upper one. -/
def onGrid (i : RoundingInterval) (step : Nat) : Option Nat :=
  let below := i.value / step
  match i.contains (below * step), i.contains ((below + 1) * step) with
  | true, true =>
    some (if (below + 1) * step - i.value ≤ i.value - below * step then below + 1 else below)
  | true, false => some below
  | false, true => some (below + 1)
  | false, false => none

/-- The point on the coarsest grid that has one, looking at the grids of
`10 ^ places` and finer. -/
def coarsest (i : RoundingInterval) : Nat → Decimal
  | 0 => ⟨i.value, i.exponent⟩
  | places + 1 =>
    match i.onGrid (Nat.pow 10 (places + 1)) with
    | some n => ⟨n, i.exponent + (places + 1 : Nat)⟩
    | none => i.coarsest places

/-- **The shortest decimal in the interval.** The search starts at the first
power of ten above the value. -/
def shortest (i : RoundingInterval) : Decimal :=
  i.coarsest (Nat.toDigits 10 i.value).length

end RoundingInterval

/-- The shortest decimal that identifies `significand * 2 ^ exponent` among
the numbers of the format. -/
def FloatFormat.shortest (f : FloatFormat) (significand : Nat) (exponent : Int) : Decimal :=
  (RoundingInterval.of f significand exponent).shortest

end ClassFile
