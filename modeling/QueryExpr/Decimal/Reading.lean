/-
Reading decimals as floats.

A decimal reads as the nearest float, a tie as the one with the even mantissa.
Numbers too large for any float read as infinity and numbers too small as zero.
-/
import QueryExpr.Text.Digits

namespace QueryExpr
namespace Decimal

def infinity : Float := 1.0 / 0.0

/-- The float nearest to `digits * 10 ^ exponent`.

The leading digit decides about numbers far outside the range, so the exponent of
the exact computation stays small. -/
def nearest (digits : Nat) (exponent : Int) : Float :=
  if digits = 0 then 0.0
  else
    let leading := exponent + (Text.decimal digits).length
    if 400 < leading then infinity
    else if leading < -400 then 0.0
    else Float.ofScientific digits (exponent < 0) exponent.natAbs

/-- The digits before and behind a point, the text they were read from, and what follows
it. -/
structure Mantissa where
  whole : List Char
  fraction : List Char
  text : List Char
  rest : List Char

/-- The mantissa has a point. -/
def Mantissa.hasPoint (m : Mantissa) : Bool := m.whole.length < m.text.length

/-- Its float, given the exponent behind it. -/
def Mantissa.toFloat (m : Mantissa) (exponent : Int) : Float :=
  nearest (Text.numeral (m.whole ++ m.fraction)) (exponent - m.fraction.length)

/-- Digits around a point, at least one of them, or digits without a point. -/
def mantissa? (text : List Char) : Option Mantissa :=
  let whole := Text.digits text
  match Text.afterDigits text with
  | '.' :: rest =>
    let fraction := Text.digits rest
    if whole.isEmpty && fraction.isEmpty then none
    else some ⟨whole, fraction, whole ++ '.' :: fraction, Text.afterDigits rest⟩
  | rest => if whole.isEmpty then none else some ⟨whole, [], whole, rest⟩

/-- The sign in front of a number, if there is one. -/
def signPart : List Char → List Char
  | '+' :: _ => ['+']
  | '-' :: _ => ['-']
  | _ => []

/-- The exponent that the text starts with and its value: a mark, perhaps a sign, and at least
one digit. -/
def exponentPart? : List Char → Option (List Char × Int)
  | [] => none
  | mark :: rest =>
    if mark = 'e' ∨ mark = 'E' then
      let sign := signPart rest
      let ds := Text.digits (rest.drop sign.length)
      if ds.isEmpty then none
      else
        let n : Int := Text.numeral ds
        some (mark :: (sign ++ ds), if sign = ['-'] then -n else n)
    else none

/-- A decimal without a sign, and nothing else.  Infinity and NaN are written by name. -/
def unsigned? (text : List Char) : Option Float :=
  let named := text.map Char.toLower
  if named = "inf".toList ∨ named = "infinity".toList then some infinity
  else if named = "nan".toList then some (0.0 / 0.0)
  else do
    let m ← mantissa? text
    match exponentPart? m.rest with
    | some (part, e) => if part.length = m.rest.length then some (m.toFloat e) else none
    | none => if m.rest.isEmpty then some (m.toFloat 0) else none

/-- Reads a text that is a decimal, perhaps with a sign, and nothing else. -/
def float? (text : String) : Option Float :=
  let cs := text.toList
  let sign := signPart cs
  (unsigned? (cs.drop sign.length)).map fun x => if sign = ['-'] then -x else x

end Decimal
end QueryExpr
