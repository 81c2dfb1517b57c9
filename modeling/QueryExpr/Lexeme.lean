/-
Lexemes: the stretches of a source text that stand for something, and the ones
that do not.
-/
import QueryExpr.Position
import QueryExpr.Token

namespace QueryExpr

/-- A stretch of source text with every token that it may stand for. -/
structure Lexeme where
  span : Span
  candidates : List Token
  deriving DecidableEq

namespace Lexeme

def isAmbiguous (l : Lexeme) : Bool := 1 < l.candidates.length

/-- The only candidate, none when there are several. -/
def single? (l : Lexeme) : Option Token :=
  match l.candidates with
  | [t] => some t
  | _ => none

def contains (l : Lexeme) (t : Token) : Bool := l.candidates.any fun c => c.same t

def display (l : Lexeme) : String :=
  l.span.display ++ " " ++ " | ".intercalate (l.candidates.map Token.display)

end Lexeme

/-- A stretch of source text that no token begins. -/
structure Unrecognized where
  text : String
  span : Span
  deriving DecidableEq

def Unrecognized.message (u : Unrecognized) : String :=
  "unrecognized sequence '" ++ u.text ++ "' at " ++ u.span.display

end QueryExpr
