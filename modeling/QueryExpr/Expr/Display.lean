/-
The displayed form of expression trees.

Every binary node stands in parentheses, so operators need no precedence.
-/
import QueryExpr.Decimal.Layout
import QueryExpr.Expr.Basic
import QueryExpr.Text.Quoted

namespace QueryExpr

/-- A value behind the name of its kind. -/
def tagged (kind : String) (value : List Char) : List Char :=
  kind.toList ++ '(' :: (value ++ [')'])

def writeBool (b : Bool) : List Char := (if b then "true" else "false").toList

def Leaf.write : Leaf → List Char
  | .int v => tagged "Int" (Text.signedDecimal v.toInt)
  | .float x => tagged "Float" (Decimal.display.write x)
  | .str s => tagged "Str" (Text.quoted s)
  | .date d => tagged "Date" d.write
  | .datetime t => tagged "Datetime" t.write
  | .bool b => tagged "Bool" (writeBool b)
  | .null => "Null".toList
  | .column c => tagged "Column" c.write

namespace Expr

/-- Two operands with an operator between them, in parentheses. -/
def between (left : List Char) (operator : String) (right : List Char) : List Char :=
  '(' :: (left ++ ' ' :: (operator.toList ++ ' ' :: (right ++ [')'])))

def targetName : Option Bool → String
  | some true => "TRUE"
  | some false => "FALSE"
  | none => "NULL"

def write : Expr → List Char
  | .leaf v => v.write
  | .sign negative x => (if negative then ['-'] else []) ++ tagged "CastToInt" x.write
  | .arith op l r => between l.write op.symbol r.write
  | .not x => "not ".toList ++ x.write
  | .logic op l r => between l.write op.keyword r.write
  | .is x target => between x.write "is" (targetName target).toList
  | .compare op l r => between l.write op.symbol r.write

def display (e : Expr) : String := String.ofList e.write

end Expr

end QueryExpr
