/-
The operators of the expression language.
-/

namespace QueryExpr

inductive ArithOp where
  | add
  | sub
  | mul
  | div
  deriving DecidableEq

def ArithOp.symbol : ArithOp → String
  | .add => "+"
  | .sub => "-"
  | .mul => "*"
  | .div => "/"

inductive LogicOp where
  | and
  | or
  deriving DecidableEq

def LogicOp.keyword : LogicOp → String
  | .and => "and"
  | .or => "or"

inductive CompareOp where
  | eq
  | ne
  | lt
  | le
  | gt
  | ge
  deriving DecidableEq

namespace CompareOp

def symbol : CompareOp → String
  | .eq => "="
  | .ne => "<>"
  | .lt => "<"
  | .le => "<="
  | .gt => ">"
  | .ge => ">="

/-- The operator that holds exactly where this one fails. -/
def inverse : CompareOp → CompareOp
  | .eq => .ne
  | .ne => .eq
  | .lt => .ge
  | .ge => .lt
  | .gt => .le
  | .le => .gt

/-- The operator of a symbol.  Difference has two spellings. -/
def ofSymbol? (symbol : String) : Option CompareOp :=
  if symbol = "=" then some .eq
  else if symbol = "<>" ∨ symbol = "!=" then some .ne
  else if symbol = "<" then some .lt
  else if symbol = "<=" then some .le
  else if symbol = ">" then some .gt
  else if symbol = ">=" then some .ge
  else none

theorem inverse_inverse (op : CompareOp) : op.inverse.inverse = op := by
  cases op <;> rfl

theorem ofSymbol?_symbol (op : CompareOp) : ofSymbol? op.symbol = some op := by
  cases op <;> decide

end CompareOp

end QueryExpr
