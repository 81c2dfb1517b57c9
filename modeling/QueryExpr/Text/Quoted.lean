/-
Text in double quotes, as displays show it.

Quotes, backslashes and the usual control characters have a short escape.  Any
other character that would not show is written by its code point in braces.  No
escape holds a bare quote, so the closing quote is the first one that stands
outside an escape.
-/
import QueryExpr.Text.GraphemeExtend
import QueryExpr.Text.Ignorable

namespace QueryExpr
namespace Text

/-- The character shows as itself between quotes. -/
def isShown (c : Char) : Bool := isPrintable c && !isIgnorable c && !isCombining c

/-- The written form of one character between quotes. -/
def quotedChar (c : Char) : List Char :=
  if c = '\x00' then ['\\', '0']
  else if c = '\t' then ['\\', 't']
  else if c = '\n' then ['\\', 'n']
  else if c = '\r' then ['\\', 'r']
  else if c = '"' ∨ c = '\\' then ['\\', c]
  else if isShown c then [c]
  else ['\\', 'u', '\x7b'] ++ Nat.toDigits 16 c.toNat ++ ['\x7d']

/-- The text between double quotes. -/
def quoted (s : String) : List Char :=
  '"' :: (s.toList.flatMap quotedChar ++ ['"'])

end Text
end QueryExpr
