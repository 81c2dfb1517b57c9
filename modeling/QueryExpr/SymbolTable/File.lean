/-
Loading a symbol table from a file.
-/
import QueryExpr.Log
import QueryExpr.SymbolTable.Json

namespace QueryExpr

/-- What is found under a path. -/
inductive FileContent where
  | absent
  | directory
  | bytes (content : ByteArray)

namespace SymbolTable

inductive LoadError where
  | missing (path : String)
  | directory (path : String)
  | notText (path : String)
  | unreadable (path : String) (cause : ReadError)

def LoadError.message : LoadError → String
  | .missing path => "config file does not exist: " ++ path
  | .directory path => "cannot read config file " ++ path ++ ": Is a directory (os error 21)"
  | .notText path =>
    "cannot read config file " ++ path ++ ": stream did not contain valid UTF-8"
  | .unreadable path cause => "cannot parse config file " ++ path ++ ": " ++ cause.message

/-- The table of a file. -/
def load (path : String) : FileContent → Except LoadError SymbolTable
  | .absent => .error (.missing path)
  | .directory => .error (.directory path)
  | .bytes content =>
    match String.fromUTF8? content with
    | none => .error (.notText path)
    | some text => (read text).mapError (.unreadable path)

/-- The record of having loaded a table. -/
def loadRecord (path : String) (t : SymbolTable) : Log.Record :=
  .loaded t.keywords.length t.symbols.length path

end SymbolTable
end QueryExpr
