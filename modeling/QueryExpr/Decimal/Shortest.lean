/-
The shortest decimal that reads back as a given float.

The decimals with a given last place form a grid on the line.  The coarsest grid
that has a point in the rounding interval of the float gives the fewest digits,
and of the two points next to the float the nearer one is taken.  If a point of
a grid lies in the interval, so does one of those two.
-/
import QueryExpr.Decimal.Binary

namespace QueryExpr
namespace Decimal

/-- The magnitude `digits * 10 ^ exponent`. -/
structure Scaled where
  digits : Nat
  exponent : Int
  deriving DecidableEq

/-- Which point to take when two are equally near. -/
inductive Tie where
  | up
  | even

/-- The interval of a float in quarters of its last binary place: `low` and `high`
around `value`, all times `2 ^ exponent`. -/
structure Interval where
  low : Nat
  value : Nat
  high : Nat
  exponent : Int
  /-- The ends belong to the interval. -/
  closed : Bool

def Interval.ofBinary (b : Binary) : Interval :=
  { low := 4 * b.mantissa - (if b.narrowBelow then 1 else 2)
    value := 4 * b.mantissa
    high := 4 * b.mantissa + 2
    exponent := b.exponent - 2
    closed := b.mantissa % 2 == 0 }

/-- The nearer neighbour of the value on the grid with last place `10 ^ place`, if
one of the two neighbours lies in the interval. -/
def Interval.neighbour? (i : Interval) (tie : Tie) (place : Int) : Option Nat :=
  let scale := Nat.pow 2 i.exponent.toNat * Nat.pow 10 (-place).toNat
  let unit := Nat.pow 2 (-i.exponent).toNat * Nat.pow 10 place.toNat
  let below := i.value * scale / unit
  let gap := i.value * scale % unit
  let inside (n : Nat) : Bool :=
    if i.closed then i.low * scale ≤ n * unit && n * unit ≤ i.high * scale
    else i.low * scale < n * unit && n * unit < i.high * scale
  let nearerBelow :=
    2 * gap < unit ||
      (2 * gap == unit && match tie with
        | .up => false
        | .even => below % 2 == 0)
  match inside below, inside (below + 1) with
  | true, true => some (if nearerBelow then below else below + 1)
  | true, false => some below
  | false, true => some (below + 1)
  | false, false => none

/-- Refines the grid place by place until it has a point in the interval. -/
def Interval.refine (i : Interval) (tie : Tie) : Nat → Int → Scaled
  | 0, place => { digits := 0, exponent := place }
  | steps + 1, place =>
    match i.neighbour? tie place with
    | some n => { digits := n, exponent := place }
    | none => i.refine tie steps (place - 1)

/-- The shortest decimal that rounds to the magnitude, nearest to it among those.

The search begins at a power of ten above the magnitude.  Seventeen digits always
suffice, and the first place lies at most two places above the leading digit. -/
def shortest (tie : Tie) (b : Binary) : Scaled :=
  let i := Interval.ofBinary b
  let top := (i.exponent + (Nat.log2 i.high : Int) + 1) * 30103 / 100000 + 1
  i.refine tie 24 top

end Decimal
end QueryExpr
