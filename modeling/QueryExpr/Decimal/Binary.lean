/-
The binary form of a float.

A finite float that is not zero is a sign and a mantissa times a power of two.
The reals that round to it form an interval around it.  Its ends lie half way to
the neighbouring floats, except that the lower neighbour of a power of two is
only half as far away.
-/

namespace QueryExpr
namespace Decimal

/-- The magnitude `mantissa * 2 ^ exponent`. -/
structure Binary where
  mantissa : Nat
  exponent : Int
  /-- The next float below is half as far away as the next one above. -/
  narrowBelow : Bool

/-- The magnitude of a finite float, read off its bits. -/
def Binary.ofFloat (x : Float) : Binary :=
  let bits := x.toBits.toNat
  let fraction : Nat := bits % Nat.pow 2 52
  let biased : Nat := bits / Nat.pow 2 52 % Nat.pow 2 11
  if biased = 0 then { mantissa := fraction, exponent := -1074, narrowBelow := false }
  else
    { mantissa := Nat.pow 2 52 + fraction
      exponent := (biased : Int) - 1075
      narrowBelow := fraction == 0 && 1 < biased }

/-- The sign bit is set.  Zero and NaN have a sign too. -/
def isNegative (x : Float) : Bool := x.toBits.toNat / Nat.pow 2 63 == 1

end Decimal
end QueryExpr
