/-
Folding of constant and trivial parts.

A tree is folded from the leaves up.  The operands of a node are folded, read as
the node reads them, and then the node's own rule decides:

- a sign goes into a number, and two signs become one
- arithmetic on numbers is carried out unless the result does not fit, division by
  zero is NULL, NULL makes the result NULL, and neutral operands disappear
- a negation inverts a comparison or a truth value
- a connective is decided by one operand if that suffices, and otherwise NULL makes
  the result NULL
- a test is decided on a truth value and on NULL
- a comparison stays, with its operands folded

What cannot be carried out stays as it is.
-/
import QueryExpr.Expr.Basic
import QueryExpr.Integer

namespace QueryExpr
namespace Expr

/-- A sign in front of a folded operand.  The smallest integer has no negative. -/
def foldSign (negative : Bool) : Expr → Expr
  | int v =>
    if negative then
      match Integer.fit? (-v.toInt) with
      | some w => int w
      | none => .sign true (int v)
    else int v
  | float x => float (if negative then -x else x)
  | null => null
  | .sign inner x => foldSign (negative != inner) x
  | e => .sign negative e

/-- A number among the leaves. -/
inductive Number where
  | int (v : Int64)
  | float (x : Float)

def number? : Expr → Option Number
  | int v => some (.int v)
  | float x => some (.float x)
  | _ => none

def Number.toFloat : Number → Float
  | .int v => Float.ofInt v.toInt
  | .float x => x

/-- The exact result on integers.  Division cuts off toward zero. -/
def intResult (op : ArithOp) (a b : Int) : Int :=
  match op with
  | .add => a + b
  | .sub => a - b
  | .mul => a * b
  | .div => a.tdiv b

def floatResult (op : ArithOp) (a b : Float) : Float :=
  match op with
  | .add => a + b
  | .sub => a - b
  | .mul => a * b
  | .div => a / b

/-- The result of an operation on two numbers, the divisor not being zero.  There is none
when an integer does not fit or a float is not finite. -/
def evaluate (op : ArithOp) : Number → Number → Option Expr
  | .int a, .int b => (Integer.fit? (intResult op a.toInt b.toInt)).map int
  | a, b =>
    let x := floatResult op a.toFloat b.toFloat
    if x.isFinite then some (float x) else none

/-- Operands of which at most one is a number. -/
def foldIdentity (op : ArithOp) (left right : Expr) : Expr :=
  if left.isNull || right.isNull then null
  else match op with
    | .add => if left.isZero then right else if right.isZero then left else .arith .add left right
    | .sub =>
      if left.isZero then foldSign true right
      else if right.isZero then left
      else .arith .sub left right
    | .mul => if left.isZero || right.isZero then int 0 else .arith .mul left right
    | .div =>
      if right.isZero then null
      else if left.isZero then int 0
      else if right.isOne then left
      else .arith .div left right

def foldArith (op : ArithOp) (left right : Expr) : Expr :=
  match left.number?, right.number? with
  | some a, some b =>
    if op = .div ∧ right.isZero then null
    else (evaluate op a b).getD (.arith op left right)
  | _, _ => foldIdentity op left right

def foldNot : Expr → Expr
  | .compare op l r => .compare op.inverse l r
  | bool b => bool (!b)
  | null => null
  | e => .not e

/-- One true operand decides a disjunction and one false operand a conjunction, even beside
NULL. -/
def foldLogic (op : LogicOp) (left right : Expr) : Expr :=
  let deciding := op == .or
  if left = bool deciding ∨ right = bool deciding then bool deciding
  else if left = bool (!deciding) ∧ right = bool (!deciding) then bool (!deciding)
  else if left.isNull || right.isNull then null
  else .logic op left right

def foldIs (operand : Expr) (target : Option Bool) : Expr :=
  match operand with
  | bool b => bool (target == some b)
  | null => bool target.isNone
  | e => .is e target

/-- The folded tree. -/
def fold : Expr → Expr
  | .leaf v => .leaf v
  | .sign negative x => foldSign negative x.fold.toInt
  | .arith op l r => foldArith op l.fold.toInt r.fold.toInt
  | .not x => foldNot x.fold.toBool
  | .logic op l r => foldLogic op l.fold.toBool r.fold.toBool
  | .is x target => foldIs x.fold.toBool target
  | .compare op l r => .compare op l.fold r.fold

end Expr
end QueryExpr
