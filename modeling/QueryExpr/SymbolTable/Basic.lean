/-
The reserved words and operator symbols that a lexer recognises.

Keywords are words in small letters, in byte order.  Symbols are texts without
blanks, the longest first and equally long ones in byte order, so that the first
symbol that fits a text is the longest one that does.
-/
import QueryExpr.Json.Printer
import QueryExpr.Text.Blank
import QueryExpr.Text.Word

namespace QueryExpr

structure SymbolTable where
  keywords : List String
  symbols : List String
  deriving DecidableEq

namespace SymbolTable

/-- Why entries do not make a table. -/
inductive Invalid where
  | notWord (keyword : String)
  | notSymbol (symbol : String)
  deriving DecidableEq

def Invalid.message : Invalid → String
  | .notWord k => "invalid symbol table: keyword '" ++ k ++ "' is not a word"
  | .notSymbol s => "invalid symbol table: symbol '" ++ s ++ "' is empty or contains whitespace"

/-- Puts an entry in its place among the others.  An entry that is there already is not
repeated. -/
def insert (before : String → String → Bool) (s : String) : List String → List String
  | [] => [s]
  | t :: rest =>
    if s = t then t :: rest
    else if before s t then s :: t :: rest
    else t :: insert before s rest

/-- The entries in order, each of them once. -/
def arrange (before : String → String → Bool) (entries : List String) : List String :=
  entries.foldr (insert before) []

def keywordBefore (a b : String) : Bool := Text.bytes a < Text.bytes b

def symbolBefore (a b : String) : Bool :=
  b.utf8ByteSize < a.utf8ByteSize ||
    (a.utf8ByteSize == b.utf8ByteSize && decide (Text.bytes a < Text.bytes b))

/-- A symbol has at least one character and no blank. -/
def isSymbol (s : String) : Bool := !s.isEmpty && !s.toList.any Text.isBlank

/-- The table of the given entries.  The first keyword that is not a word is refused before
any symbol is looked at. -/
def ofEntries (keywords symbols : List String) : Except Invalid SymbolTable :=
  let keywords := keywords.map Text.lower
  match keywords.find? fun k => !Text.isWord k.toList with
  | some k => .error (.notWord k)
  | none =>
    match symbols.find? fun s => !isSymbol s with
    | some s => .error (.notSymbol s)
    | none =>
      .ok { keywords := arrange keywordBefore keywords, symbols := arrange symbolBefore symbols }

def defaultKeywords : List String :=
  ["and", "or", "not", "is", "null", "true", "false", "in", "like", "between", "case", "when",
    "then", "else", "end", "as", "distinct", "date", "datetime"]

def defaultSymbols : List String :=
  ["<=", ">=", "<>", "!=", "||", "=", "<", ">", "+", "-", "*", "/", "%", "(", ")", ",", ".", ";"]

/-- The table that is used where none is given. -/
def default : SymbolTable :=
  { keywords := arrange keywordBefore defaultKeywords
    symbols := arrange symbolBefore defaultSymbols }

/-- The table's spelling of a word that is a keyword in some case. -/
def keyword? (t : SymbolTable) (word : String) : Option String :=
  t.keywords.find? fun k => Text.lower k = Text.lower word

/-- The longest symbol that the text starts with. -/
def longestSymbol? (t : SymbolTable) (text : List Char) : Option String :=
  t.symbols.find? fun s => s.toList.isPrefixOf text

/-- The entries in JSON, as a table is read. -/
def toJson (t : SymbolTable) : Json :=
  .object [("keywords", .array (t.keywords.map .string)),
    ("symbols", .array (t.symbols.map .string))]

end SymbolTable

end QueryExpr
