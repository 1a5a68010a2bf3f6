import Artboard.Number.Binary

/-! # Shortest decimal digits

Every number rounds from an interval of reals, and every decimal in that interval reads back as the
number. Of these decimals the ones on the coarsest grid of powers of ten are the shortest.

* `Interval.of`: the reals that round to `mantissa * 2 ^ exponent`, as fractions over one
  denominator; the ends belong to it when the mantissa is even.
* `Interval.onGrid`: the decimal of a grid that lies in the interval, the nearer one of two.
* `shortest`: the first hit while the grids get finer. -/

namespace Artboard.Number

/-- A decimal `digits * 10 ^ exponent`. -/
structure Decimal where
  digits : Nat
  exponent : Int
  deriving DecidableEq, Repr

/-- Which of two equally near decimals is taken. -/
inductive Tie
  /-- The one with an even last digit. -/
  | toEven
  /-- The one farther from zero. -/
  | away
  deriving DecidableEq, Repr

/-- The reals that round to one number: `low` to `high` around `value`, all over `scale`. -/
structure Interval where
  low : Nat
  value : Nat
  high : Nat
  scale : Nat
  /-- Whether the two ends round to the number as well. -/
  closed : Bool
  deriving DecidableEq, Repr

/-- The interval of `mantissa * 2 ^ exponent`: half a unit up, and half a unit down, or a quarter
below a power of two, where the numbers below lie twice as dense. -/
def Interval.of (mantissa : Nat) (exponent : Int) : Interval :=
  let up := Nat.pow 2 (exponent - 2).toNat
  let below := if mantissa = Nat.pow 2 52 ∧ exponent ≠ -1074 then 1 else 2
  { low := (4 * mantissa - below) * up
    value := 4 * mantissa * up
    high := (4 * mantissa + 2) * up
    scale := Nat.pow 2 (2 - exponent).toNat
    closed := mantissa % 2 = 0 }

/-- Whether the fraction `numerator / denominator` lies in the interval. -/
def Interval.contains (i : Interval) (numerator denominator : Nat) : Bool :=
  let n := numerator * i.scale
  if i.closed then i.low * denominator ≤ n && n ≤ i.high * denominator
  else i.low * denominator < n && n < i.high * denominator

/-- The multiple of `10 ^ exponent` in the interval that is nearest to its value. Only the two
multiples next to the value need a look: if any lies in the interval, one of them does. -/
def Interval.onGrid (i : Interval) (tie : Tie) (exponent : Int) : Option Nat :=
  let up := Nat.pow 10 exponent.toNat
  let down := Nat.pow 10 (-exponent).toNat
  let below := i.value * down / (i.scale * up)
  let inside := fun n : Nat => i.contains (n * up) down
  match inside below, inside (below + 1) with
  | false, false => none
  | true, false => some below
  | false, true => some (below + 1)
  | true, true =>
    -- twice the distance from the lower multiple, against the width of the grid
    let twice := 2 * (i.value * down - below * (i.scale * up))
    let width := i.scale * up
    if twice < width then some below
    else if width < twice then some (below + 1)
    else match tie with
      | .away => some (below + 1)
      | .toEven => if below % 2 = 0 then some below else some (below + 1)

/-- The first hit on the grids `10 ^ exponent`, `10 ^ (exponent - 1)`, … -/
def Interval.search (i : Interval) (tie : Tie) : Nat → Int → Decimal
  | 0, exponent => ⟨i.value / i.scale, exponent⟩
  | steps + 1, exponent =>
    match i.onGrid tie exponent with
    | some digits => ⟨digits, exponent⟩
    | none => i.search tie steps (exponent - 1)

/-- The shortest decimal that rounds to `mantissa * 2 ^ exponent`, for a positive mantissa below
`2 ^ 53`. The search starts on a grid coarser than the value; seventeen digits always suffice. -/
def shortest (tie : Tie) (mantissa : Nat) (exponent : Int) : Decimal :=
  let decade := (mantissa.log2 + exponent) * 30103 / 100000
  (Interval.of mantissa exponent).search tie 21 (decade + 2)

end Artboard.Number
