/-
The compact written form of JSON values.

Nothing is written between the parts of a value.  Strings escape quotes,
backslashes and control characters.  Floats have an exponent below 0.00001 and
from 1e+16 on, and keep a point otherwise.
-/
import QueryExpr.Json.Basic
import QueryExpr.Decimal.Layout

namespace QueryExpr
namespace Json

/-- Floats in JSON text. -/
def layout : Decimal.Layout :=
  { tie := .even, keepsPoint := true, isPositional := fun e => -5 ≤ e && e < 16 }

def hexDigit (n : Nat) : Char := Nat.digitChar n

def escaped (c : Char) : List Char :=
  if c = '"' then ['\\', '"']
  else if c = '\\' then ['\\', '\\']
  else if c = '\x08' then ['\\', 'b']
  else if c = '\x0c' then ['\\', 'f']
  else if c = '\n' then ['\\', 'n']
  else if c = '\r' then ['\\', 'r']
  else if c = '\t' then ['\\', 't']
  else if c.toNat < 0x20 then
    ['\\', 'u', '0', '0', hexDigit (c.toNat / 16), hexDigit (c.toNat % 16)]
  else [c]

def writeString (s : String) : List Char := '"' :: (s.toList.flatMap escaped ++ ['"'])

def Number.write : Number → List Char
  | .integer i _ => Text.signedDecimal i
  | .real x _ => layout.write x

/-- The parts with commas between them. -/
def commaSeparated (parts : List (List Char)) : List Char := [','].intercalate parts

mutual

def write : Json → List Char
  | .null => "null".toList
  | .bool true => "true".toList
  | .bool false => "false".toList
  | .number n => n.write
  | .string s => writeString s
  | .array items => '[' :: (commaSeparated (writeItems items) ++ [']'])
  | .object members => '\x7b' :: (commaSeparated (writeMembers members) ++ ['\x7d'])
termination_by structural v => v

def writeItems : List Json → List (List Char)
  | [] => []
  | v :: rest => write v :: writeItems rest
termination_by structural items => items

def writeMembers : List (String × Json) → List (List Char)
  | [] => []
  | (key, v) :: rest => (writeString key ++ ':' :: write v) :: writeMembers rest
termination_by structural members => members

end

/-- The compact text of a value. -/
def compact (v : Json) : String := String.ofList v.write

end Json
end QueryExpr
