/-
The shell: lines of input and the lines that answer them.

A line is an expression to be cut into lexemes, or a command.  `:fold` shows a tree
and its folded form, and `:quit` ends the session.  Backspaces in a line are carried
out before it is read.
-/
import QueryExpr.Expr.Simplify
import QueryExpr.Expr.Tagged
import QueryExpr.Json.Reader
import QueryExpr.Lexer
import QueryExpr.SymbolTable.File
import QueryExpr.Text.Backspace

namespace QueryExpr
namespace Shell

def symbolsFile : String := "symbols.json"

/-- The table of the file, or the default one when the file holds none. -/
def tableOf (file : FileContent) : SymbolTable :=
  match SymbolTable.load symbolsFile file with
  | .ok t => t
  | .error _ => SymbolTable.default

def banner : List String :=
  ["--- multidb expression front end ---",
    "Type an expression to tokenize it, ':fold <json>' to simplify a tree, ':quit' to exit."]

/-- The text with spaces behind it up to twelve characters. -/
def padTo12 (text : List Char) : List Char := text ++ List.replicate (12 - text.length) ' '

def lexemeLine (source : List Char) (l : Lexeme) : String :=
  (if l.isAmbiguous then "?" else " ") ++ " " ++
    String.ofList (padTo12 (l.span.text source)) ++ " " ++ l.display

def problem (message : String) : String := "! " ++ message

def answerText (table : SymbolTable) (line : List Char) : List String :=
  let (lexemes, reports) := tokenize table (String.ofList line)
  lexemes.map (lexemeLine line) ++ reports.map fun u => problem u.message

def answerFold (json : List Char) : List String :=
  match Json.read (String.ofList json) with
  | .error e => [problem ("invalid JSON: " ++ e.message)]
  | .ok v =>
    match Expr.ofJson v with
    | .error e => [problem e.message]
    | .ok e => ["  input:      " ++ e.display, "  simplified: " ++ e.simplify.1.display]

/-- What a line asks for. -/
inductive Request where
  | blank
  | quit
  | fold (json : List Char)
  | text (line : List Char)

def foldCommand : List Char := ":fold ".toList

/-- The request of a line without backspaces. -/
def Request.ofText (line : List Char) : Request :=
  let line := Text.trim line
  if line.isEmpty then .blank
  else if line = ":quit".toList then .quit
  else if foldCommand.isPrefixOf line then .fold (line.drop foldCommand.length)
  else .text line

/-- The request of a line as it was typed, none when a backspace of it cuts a
character apart. -/
def Request.ofLine? (line : String) : Option Request :=
  (Text.applyBackspaces line.toList).map Request.ofText

/-- How a session ends. -/
inductive Ending where
  /-- With the input or on request. -/
  | finished
  /-- On a line that cannot be read. -/
  | failed
  deriving DecidableEq

/-- The exit code of a session. -/
def Ending.status : Ending → Nat
  | .finished => 0
  | .failed => 101

/-- What follows a line. -/
inductive Reply where
  | lines (shown : List String)
  | stop (ending : Ending)

/-- The reply to a line. -/
def reply (table : SymbolTable) (line : String) : Reply :=
  match Request.ofLine? line with
  | none => .stop .failed
  | some .blank => .lines []
  | some .quit => .stop .finished
  | some (.fold json) => .lines (answerFold json)
  | some (.text line) => .lines (answerText table line)

/-- What is shown for the lines, up to the one that ends the session, and how it ends. -/
def replies (table : SymbolTable) : List String → List String × Ending
  | [] => ([], .finished)
  | line :: rest =>
    match reply table line with
    | .stop ending => ([], ending)
    | .lines shown =>
      let (others, ending) := replies table rest
      (shown ++ others, ending)

/-- All lines that a session shows, and how it ends. -/
def session (file : FileContent) (lines : List String) : List String × Ending :=
  let (shown, ending) := replies (tableOf file) lines
  (banner ++ shown, ending)

end Shell
end QueryExpr
