/-
Numbers in JSON text.

An integer without point and exponent that fits a word of 64 bits stays exact, and
any other number becomes a float.  The digits of a float are gathered in a word of
64 bits for as long as they fit, and the value is that word times or divided by
one power of ten.  Further digits only move the exponent.
-/
import QueryExpr.Json.Basic
import QueryExpr.Json.Scan
import QueryExpr.Text.Digits

namespace QueryExpr
namespace Json

def maxWord : Nat := 0xFFFF_FFFF_FFFF_FFFF

def maxExponent : Nat := 0x7FFF_FFFF

/-- The largest power of ten that is a float. -/
def maxPower : Nat := 308

def tenTo (n : Nat) : Float := Float.ofScientific 1 false n

/-- Divides by `10 ^ n`, in steps of the largest power of ten.  It stops at zero. -/
def divideByPower : Nat → Float → Nat → Float
  | 0, x, _ => x
  | steps + 1, x, n =>
    if n ≤ maxPower then x / tenTo n
    else if x == 0.0 then x
    else divideByPower steps (x / tenTo maxPower) (n - maxPower)

/-- The magnitude `significand * 10 ^ exponent` as a float, nothing when it is too large. -/
def scaled? (significand : Nat) (exponent : Int) : Option Float :=
  let x := Float.ofNat significand
  if exponent < 0 then
    some (divideByPower (exponent.natAbs / maxPower + 1) x exponent.natAbs)
  else if exponent ≤ maxPower then some (x * tenTo exponent.toNat)
  else if x == 0.0 then some x
  else none

/-- A float in front of `rest`.  No number is infinite. -/
def real (negative : Bool) (significand : Nat) (exponent : Int) (rest : List Char) :
    Except Fault (Number × List Char) :=
  match scaled? significand exponent with
  | none => .error (.before rest .numberOutOfRange)
  | some x =>
    let x := if negative then -x else x
    if finite : x.isFinite = true then .ok (.real x finite, rest)
    else .error (.before rest .numberOutOfRange)

/-- An integer in front of `rest`.  Minus zero is a float, for the sign to stay. -/
def integer (negative : Bool) (significand : Nat) (rest : List Char) :
    Except Fault (Number × List Char) :=
  let i : Int := if negative then -(significand : Int) else significand
  if negative ∧ significand = 0 then real negative significand 0 rest
  else if inRange : -0x8000_0000_0000_0000 ≤ i ∧ i < 0x1_0000_0000_0000_0000 then
    .ok (.integer i inRange, rest)
  else real negative significand 0 rest

/-- Takes digits into the significand for as long as it fits a word. -/
def significand : Nat → List Char → Nat × List Char
  | n, [] => (n, [])
  | n, c :: rest =>
    if c.isDigit ∧ 10 * n + Text.digitValue c ≤ maxWord then
      significand (10 * n + Text.digitValue c) rest
    else (n, c :: rest)

/-- The value of the digits and what follows, or what follows the digit that takes the
value beyond the largest exponent. -/
def exponentDigits : Nat → List Char → Except (List Char) (Nat × List Char)
  | n, [] => .ok (n, [])
  | n, c :: rest =>
    if c.isDigit then
      if maxExponent < 10 * n + Text.digitValue c then .error rest
      else exponentDigits (10 * n + Text.digitValue c) rest
    else .ok (n, c :: rest)

/-- The digits of an exponent, at least one. -/
def exponentAfterSign (negative : Bool) (n : Nat) (exponent : Int) (down : Bool) :
    List Char → Except Fault (Number × List Char)
  | [] => .error (.atEnd .endInValue)
  | c :: rest =>
    if c.isDigit then
      match exponentDigits 0 (c :: rest) with
      | .ok (e, rest) => real negative n (if down then exponent - e else exponent + e) rest
      | .error rest =>
        if n ≠ 0 ∧ !down then .error (.before rest .numberOutOfRange)
        else real negative 0 0 (Text.afterDigits rest)
    else .error (.within (c :: rest) .invalidNumber)

/-- An exponent whose mark was read. -/
def exponentPart (negative : Bool) (n : Nat) (exponent : Int) :
    List Char → Except Fault (Number × List Char)
  | '+' :: rest => exponentAfterSign negative n exponent false rest
  | '-' :: rest => exponentAfterSign negative n exponent true rest
  | rest => exponentAfterSign negative n exponent false rest

/-- The end of a float, or its exponent. -/
def afterFraction (negative : Bool) (n : Nat) (exponent : Int) (text : List Char) :
    Except Fault (Number × List Char) :=
  match text with
  | 'e' :: rest => exponentPart negative n exponent rest
  | 'E' :: rest => exponentPart negative n exponent rest
  | rest => real negative n exponent rest

/-- The digits behind a point, at least one. -/
def fractionPart (negative : Bool) (n : Nat) (exponent : Int) (text : List Char) :
    Except Fault (Number × List Char) :=
  let (n, rest) := significand n text
  let taken := text.length - rest.length
  if Text.startsWithDigit rest then
    afterFraction negative n (exponent - taken) (Text.afterDigits rest)
  else if taken = 0 then
    if rest.isEmpty then .error (.atEnd .endInValue) else .error (.within rest .invalidNumber)
  else afterFraction negative n (exponent - taken) rest

/-- What may follow the whole digits of a number.  `dropped` digits did not fit. -/
def afterWhole (negative : Bool) (n dropped : Nat) (text : List Char) :
    Except Fault (Number × List Char) :=
  match text with
  | '.' :: rest => fractionPart negative n dropped rest
  | 'e' :: rest => exponentPart negative n dropped rest
  | 'E' :: rest => exponentPart negative n dropped rest
  | rest => if dropped = 0 then integer negative n rest else real negative n dropped rest

/-- A number whose sign was read.  Zero is the only number that begins with a zero. -/
def unsigned (negative : Bool) : List Char → Except Fault (Number × List Char)
  | [] => .error (.atEnd .endInValue)
  | c :: rest =>
    if c = '0' then
      if Text.startsWithDigit rest then .error (.within rest .invalidNumber)
      else afterWhole negative 0 0 rest
    else if c.isDigit then
      let (n, rest) := significand 0 (c :: rest)
      afterWhole negative n (Text.digits rest).length (Text.afterDigits rest)
    else .error (.within (c :: rest) .invalidNumber)

end Json
end QueryExpr
