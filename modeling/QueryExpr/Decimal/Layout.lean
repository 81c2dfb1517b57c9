/-
The written form of a float.

The digits are always the shortest that read back.  A layout decides the rest:
where positional notation ends, whether a whole number keeps its point, and which
of two equally near digits is taken.
-/
import QueryExpr.Decimal.Shortest
import QueryExpr.Text.Digits

namespace QueryExpr
namespace Decimal

structure Layout where
  tie : Tie
  /-- Whole numbers in positional notation end in a point and a zero. -/
  keepsPoint : Bool
  /-- Leading exponents that are written in positional notation. -/
  isPositional : Int → Bool

/-- Digits with the point behind the first `whole` of them, padded with zeros. -/
def positional (keepsPoint : Bool) (ds : List Char) (whole : Int) : List Char :=
  if whole ≤ 0 then
    ['0', '.'] ++ List.replicate (-whole).toNat '0' ++ ds
  else if (ds.length : Int) ≤ whole then
    ds ++ List.replicate (whole.toNat - ds.length) '0' ++ (if keepsPoint then ['.', '0'] else [])
  else ds.take whole.toNat ++ ['.'] ++ ds.drop whole.toNat

/-- One digit, a point before any others, and the exponent with its sign. -/
def scientific (ds : List Char) (exponent : Int) : List Char :=
  let mantissa := match ds with
    | [] => []
    | [d] => [d]
    | d :: rest => d :: '.' :: rest
  mantissa ++ ['e', if exponent < 0 then '-' else '+'] ++ Text.decimal exponent.natAbs

/-- The written form of a finite magnitude that is not zero. -/
def Layout.magnitude (l : Layout) (b : Binary) : List Char :=
  let s := shortest l.tie b
  let ds := Text.decimal s.digits
  let whole := s.exponent + ds.length
  if l.isPositional (whole - 1) then positional l.keepsPoint ds whole
  else scientific ds (whole - 1)

/-- The written form of a float. -/
def Layout.write (l : Layout) (x : Float) : List Char :=
  if x.isNaN then ['N', 'a', 'N']
  else
    let sign := if isNegative x then ['-'] else []
    if x.isInf then sign ++ ['i', 'n', 'f']
    else if x == 0.0 then sign ++ (if l.keepsPoint then ['0', '.', '0'] else ['0'])
    else sign ++ l.magnitude (Binary.ofFloat x)

/-- Displays write every digit in its place and whole numbers without a point. -/
def display : Layout := { tie := .up, keepsPoint := false, isPositional := fun _ => true }

end Decimal
end QueryExpr
