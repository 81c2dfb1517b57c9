import QueryExpr.Main
import QueryExpr.Proofs.Symbols.Obtained
import QueryExpr.Proofs.Lexer.MaximalMunch
import QueryExpr.Proofs.Fold.Settled
import QueryExpr.Proofs.Fold.Value
import QueryExpr.Proofs.Fold.Kleene
import QueryExpr.Proofs.Fold.Closed
import QueryExpr.Proofs.Fold.Condition
import QueryExpr.Proofs.Fold.Normal
import QueryExpr.Proofs.Fold.Signs
import QueryExpr.Proofs.Fold.Size
import QueryExpr.Proofs.Fold.Finite
import QueryExpr.Proofs.Lexer.Spelling
import QueryExpr.Proofs.Lexer.Places
import QueryExpr.Proofs.Lexer.Pulling
import QueryExpr.Proofs.Lexer.Stepwise
import QueryExpr.Proofs.Lexer.Matching
import QueryExpr.Proofs.Lexer.Segments
import QueryExpr.Proofs.Lexer.Shifts
import QueryExpr.Proofs.Lexer.Lines
import QueryExpr.Proofs.Lexer.Relexing
import QueryExpr.Proofs.Lexer.Ambiguity
import QueryExpr.Proofs.Lexer.Entries
import QueryExpr.Proofs.Lexer.Quoting
import QueryExpr.Proofs.Lexer.Decimals
import QueryExpr.Proofs.Lexer.Times
import QueryExpr.Proofs.Json.Written
import QueryExpr.Proofs.Symbols.Order
import QueryExpr.Proofs.Symbols.Lookup
import QueryExpr.Proofs.Symbols.Written
import QueryExpr.Proofs.Text.Numerals
import QueryExpr.Proofs.Calendar.Reading
import QueryExpr.Proofs.Expr.Dotted
import QueryExpr.Proofs.Expr.Encoding
import QueryExpr.Proofs.Expr.Offenders
import QueryExpr.Proofs.Expr.Unambiguous
import QueryExpr.Proofs.Calendar.Agreement
import QueryExpr.Proofs.Checked.Lexing
