/-
The command line: a session on standard input, with the symbol table of the working
directory.
-/
import QueryExpr.Shell

open QueryExpr

/-- The content of a file.  A file that cannot be read counts as absent. -/
def readFile (path : String) : IO FileContent := do
  try
    return .bytes (← IO.FS.readBinFile path)
  catch _ =>
    return .absent

/-- Answers line by line until the input or the session ends. -/
partial def serve (table : SymbolTable) (input : IO.FS.Stream) : IO Shell.Ending := do
  let line ← input.getLine
  if line.isEmpty then return .finished
  match Shell.reply table line with
  | .stop ending => return ending
  | .lines shown =>
    for s in shown do
      IO.println s
    serve table input

def main : IO UInt32 := do
  let table := Shell.tableOf (← readFile Shell.symbolsFile)
  for s in Shell.banner do
    IO.println s
  let ending ← serve table (← IO.getStdin)
  return ending.status.toUInt32
