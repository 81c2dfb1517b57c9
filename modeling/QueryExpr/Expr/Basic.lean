/-
Expression trees.

The leaves are values and column names.  Signs and arithmetic read their operands
as integers, the logical nodes as truth values, and comparisons take them as they
are.  `toInt` and `toBool` are these readings of a leaf.
-/
import QueryExpr.Calendar.Datetime
import QueryExpr.Column
import QueryExpr.Expr.Operator

namespace QueryExpr

inductive Leaf where
  | int (v : Int64)
  | float (x : Float)
  | str (s : String)
  | date (d : Date)
  | datetime (t : Datetime)
  | bool (b : Bool)
  | null
  | column (c : Column)
  deriving DecidableEq

inductive Expr where
  | leaf (v : Leaf)
  /-- A sign in front of an operand that is read as an integer. -/
  | sign (negative : Bool) (operand : Expr)
  | arith (op : ArithOp) (left right : Expr)
  | not (operand : Expr)
  | logic (op : LogicOp) (left right : Expr)
  /-- The test for a truth value.  No target means NULL. -/
  | is (operand : Expr) (target : Option Bool)
  | compare (op : CompareOp) (left right : Expr)
  deriving DecidableEq

namespace Expr

@[match_pattern] abbrev int (v : Int64) : Expr := .leaf (.int v)

@[match_pattern] abbrev float (x : Float) : Expr := .leaf (.float x)

@[match_pattern] abbrev str (s : String) : Expr := .leaf (.str s)

@[match_pattern] abbrev bool (b : Bool) : Expr := .leaf (.bool b)

@[match_pattern] abbrev null : Expr := .leaf .null

@[match_pattern] abbrev column (c : Column) : Expr := .leaf (.column c)

def isNull (e : Expr) : Bool := e = null

/-- A number that is zero. -/
def isZero : Expr → Bool
  | int v => v == 0
  | float x => x == 0.0
  | _ => false

/-- A number that is one. -/
def isOne : Expr → Bool
  | int v => v == 1
  | float x => x == 1.0
  | _ => false

/-- Truth values read as integers.  Anything else stays. -/
def toInt : Expr → Expr
  | bool b => int (if b then 1 else 0)
  | e => e

/-- Numbers read as truth values.  Anything else stays. -/
def toBool : Expr → Expr
  | int v => bool (v != 0)
  | float x => bool (x != 0.0)
  | e => e

end Expr

/-- The leaves are equal as values.  Floats are compared as numbers, so NaN differs from
itself and the two zeros are equal. -/
def Leaf.same : Leaf → Leaf → Bool
  | .float x, .float y => x == y
  | a, b => a = b

/-- The trees have one shape and the same leaves. -/
def Expr.same : Expr → Expr → Bool
  | .leaf a, .leaf b => a.same b
  | .sign m x, .sign n y => m == n && x.same y
  | .arith o l r, .arith p s t => o == p && l.same s && r.same t
  | .not x, .not y => x.same y
  | .logic o l r, .logic p s t => o == p && l.same s && r.same t
  | .is x a, .is y b => x.same y && a == b
  | .compare o l r, .compare p s t => o == p && l.same s && r.same t
  | _, _ => false

end QueryExpr
