/-
Tokens: what a stretch of source text may stand for, with its value.
-/
import QueryExpr.Calendar.Datetime
import QueryExpr.Decimal.Layout
import QueryExpr.Text.Quoted

namespace QueryExpr

inductive Token where
  | int (v : Int64)
  | float (x : Float)
  /-- The text between the quotes, a doubled quote standing for one. -/
  | str (s : String)
  | date (d : Date)
  | datetime (t : Datetime)
  | identifier (name : String)
  /-- A keyword in the spelling of the symbol table. -/
  | keyword (name : String)
  | symbol (s : String)
  deriving DecidableEq

namespace Token

/-- The tokens are equal as values.  Floats are compared as numbers. -/
def same : Token → Token → Bool
  | .float x, .float y => x == y
  | a, b => a = b

/-- The word for the kind of token. -/
def kind : Token → String
  | .int _ => "int"
  | .float _ => "float"
  | .str _ => "string"
  | .date _ => "date"
  | .datetime _ => "datetime"
  | .identifier _ => "identifier"
  | .keyword _ => "keyword"
  | .symbol _ => "symbol"

/-- The value of the token as text. -/
def value : Token → String
  | .int v => String.ofList (Text.signedDecimal v.toInt)
  | .float x => String.ofList (Decimal.display.write x)
  | .str s => s
  | .date d => String.ofList d.write
  | .datetime t => String.ofList t.write
  | .identifier name => name
  | .keyword name => name
  | .symbol s => s

/-- The value behind its kind.  String values are quoted. -/
def display (t : Token) : String :=
  let value := match t with
    | .str s => String.ofList (Text.quoted s)
    | t => t.value
  t.kind ++ "(" ++ value ++ ")"

end Token

end QueryExpr
