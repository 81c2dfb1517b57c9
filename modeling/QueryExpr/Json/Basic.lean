/-
JSON values.

A number is an integer of at most 64 bits or a finite float, and the two stay
apart: `1` is not `1.0`.  The members of an object are in the order of their keys
and every key occurs once, so that equal objects are equal lists.
-/
import QueryExpr.Text.Bytes

namespace QueryExpr

/-- An integer that fits a signed or an unsigned word of 64 bits, or a finite float. -/
inductive Json.Number where
  | integer (value : Int)
    (inRange : -0x8000_0000_0000_0000 ≤ value ∧ value < 0x1_0000_0000_0000_0000)
  | real (value : Float) (finite : value.isFinite = true)
  deriving DecidableEq

inductive Json where
  | null
  | bool (b : Bool)
  | number (n : Json.Number)
  | string (s : String)
  | array (items : List Json)
  | object (members : List (String × Json))

namespace Json

/-- Puts a member in its place among the others.  The last one of a key stays. -/
def putMember (key : String) (value : Json) : List (String × Json) → List (String × Json)
  | [] => [(key, value)]
  | (k, v) :: rest =>
    if key = k then (key, value) :: rest
    else if Text.bytes key < Text.bytes k then (key, value) :: (k, v) :: rest
    else (k, v) :: putMember key value rest

/-- The word for what a value is. -/
def kind : Json → String
  | .null => "null"
  | .bool _ => "boolean"
  | .number _ => "number"
  | .string _ => "string"
  | .array _ => "array"
  | .object _ => "object"

end Json

end QueryExpr
