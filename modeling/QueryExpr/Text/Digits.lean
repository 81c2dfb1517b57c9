/-
Decimal digits.

Reading and writing natural numbers in base ten, with or without leading zeros.
Only the ten digits of ASCII count as digits.
-/

namespace QueryExpr
namespace Text

/-- The run of digits that the text starts with. -/
def digits (text : List Char) : List Char := text.takeWhile Char.isDigit

/-- What follows the run of digits that the text starts with. -/
def afterDigits (text : List Char) : List Char := text.dropWhile Char.isDigit

theorem digits_append_afterDigits (text : List Char) : digits text ++ afterDigits text = text :=
  List.takeWhile_append_dropWhile

def startsWithDigit : List Char → Bool
  | [] => false
  | c :: _ => c.isDigit

def digitValue (c : Char) : Nat := c.toNat - '0'.toNat

/-- The value of a numeral in base ten, the first digit being the highest. -/
def numeral (ds : List Char) : Nat := ds.foldl (fun n c => 10 * n + digitValue c) 0

/-- A number in base ten without leading zeros. -/
def decimal (n : Nat) : List Char := Nat.toDigits 10 n

/-- A number in base ten with zeros in front up to the given width. -/
def padded (width n : Nat) : List Char :=
  List.replicate (width - (decimal n).length) '0' ++ decimal n

/-- An integer in base ten, with a minus sign in front when it is negative. -/
def signedDecimal (i : Int) : List Char :=
  if i < 0 then '-' :: decimal i.natAbs else decimal i.natAbs

/-- Reads exactly `count` digits and gives their value with what follows them. -/
def fixedDigits? (count : Nat) (text : List Char) : Option (Nat × List Char) :=
  let ds := text.take count
  if ds.length = count ∧ ds.all Char.isDigit then some (numeral ds, text.drop count) else none

/-- Reads one given character. -/
def literal? (c : Char) : List Char → Option (List Char)
  | [] => none
  | d :: rest => if d = c then some rest else none

end Text
end QueryExpr
