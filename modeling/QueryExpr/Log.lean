/-
Records of what the library does, for those who watch it.

A record keeps the values it speaks of, and its message is made from them.
-/
import QueryExpr.Expr.Display
import QueryExpr.Lexeme

namespace QueryExpr
namespace Log

/-- How much a record matters, from the least on. -/
inductive Level where
  | trace
  | debug
  | info
  | warn
  | error
  deriving DecidableEq

namespace Level

def rank : Level → Nat
  | .trace => 0
  | .debug => 1
  | .info => 2
  | .warn => 3
  | .error => 4

def name : Level → String
  | .trace => "TRACE"
  | .debug => "DEBUG"
  | .info => "INFO"
  | .warn => "WARN"
  | .error => "ERROR"

end Level

inductive Record where
  /-- A lexeme was read. -/
  | lexeme (l : Lexeme)
  /-- Text was skipped. -/
  | skipped (u : Unrecognized)
  /-- Skipped text was reported to the log. -/
  | reported (u : Unrecognized)
  /-- A tree was folded. -/
  | folded (before after : Expr)
  /-- A symbol table was loaded. -/
  | loaded (keywords symbols : Nat) (path : String)

namespace Record

def level : Record → Level
  | .lexeme _ => .trace
  | .skipped _ => .debug
  | .reported _ => .warn
  | .folded _ _ => .trace
  | .loaded _ _ _ => .info

def message : Record → String
  | .lexeme l => l.display
  | .skipped u => u.message
  | .reported u => u.message
  | .folded before after => "convolution: " ++ before.display ++ " => " ++ after.display
  | .loaded keywords symbols path =>
    "loaded " ++ toString keywords ++ " keywords and " ++ toString symbols ++
      " symbols from " ++ path

end Record

/-- The records that matter at least as much as `least`. -/
def atLeast (least : Level) (records : List Record) : List Record :=
  records.filter fun r => least.rank ≤ r.level.rank

end Log

end QueryExpr
