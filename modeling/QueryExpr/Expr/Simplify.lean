/-
Folding on the record.
-/
import QueryExpr.Expr.Fold
import QueryExpr.Log

namespace QueryExpr

/-- The folded tree with the record of folding it. -/
def Expr.simplify (e : Expr) : Expr × Log.Record := (e.fold, .folded e e.fold)

end QueryExpr
