/-
The lexer: a source text cut into lexemes.

At each place the longest match counts, and all tokens of that length become the
candidates of one lexeme.  Text that no token begins is skipped up to the next
blank and reported, and reading goes on behind it.

`scan` is one step of this.  A lexer repeats it and keeps what it has reported and
recorded.
-/
import QueryExpr.Cursor
import QueryExpr.Log
import QueryExpr.Token.Matcher

namespace QueryExpr

/-- What one step of reading finds. -/
inductive Finding where
  | lexeme (l : Lexeme)
  | unrecognized (u : Unrecognized)

/-- The greatest length among the matches, zero when there are none. -/
def longest (ms : List Match) : Nat := ms.foldl (fun n m => max n m.length) 0

/-- The matches that are as long as the longest one. -/
def bestMatches (table : SymbolTable) (text : List Char) : List Match :=
  let ms := Matcher.allMatches table text
  ms.filter fun m => m.length = longest ms

/-- What the text at a cursor that stands on a character begins with, and the place behind
it. -/
def findAt (table : SymbolTable) (start : Cursor) : Finding × Cursor :=
  match bestMatches table start.rest with
  | [] =>
    let stop := start.skipWhile fun c => !Text.isBlank c
    (.unrecognized ⟨String.ofList (start.textTo stop), start.spanTo stop⟩, stop)
  | best :: others =>
    let stop := start.advanceN best.text.length
    (.lexeme ⟨start.spanTo stop, (best :: others).map Match.token⟩, stop)

/-- What comes next behind any blanks, none at the end of the text. -/
def scan (table : SymbolTable) (c : Cursor) : Option (Finding × Cursor) :=
  let start := c.skipBlanks
  if start.isEnd then none else some (findAt table start)

/-- Where reports of unrecognized text go. -/
inductive Sink where
  | collect (reports : List Unrecognized)
  | log
  | ignore

namespace Sink

def report (s : Sink) (u : Unrecognized) : Sink :=
  match s with
  | .collect reports => .collect (reports ++ [u])
  | .log => .log
  | .ignore => .ignore

/-- What was collected. -/
def reports : Sink → List Unrecognized
  | .collect reports => reports
  | .log => []
  | .ignore => []

/-- The records of a report. -/
def records (s : Sink) (u : Unrecognized) : List Log.Record :=
  match s with
  | .log => [.skipped u, .reported u]
  | _ => [.skipped u]

end Sink

structure Lexer where
  table : SymbolTable
  cursor : Cursor
  sink : Sink
  /-- The records so far, the oldest first. -/
  records : List Log.Record

namespace Lexer

def ofText (table : SymbolTable) (text : String) (sink : Sink) : Lexer :=
  { table, cursor := Cursor.ofText text.toList, sink, records := [] }

/-- The lexer behind unrecognized text. -/
def skip (l : Lexer) (u : Unrecognized) (stop : Cursor) : Lexer :=
  { l with cursor := stop, sink := l.sink.report u, records := l.records ++ l.sink.records u }

/-- The lexer behind a lexeme. -/
def take (l : Lexer) (x : Lexeme) (stop : Cursor) : Lexer :=
  { l with cursor := stop, records := l.records ++ [.lexeme x] }

/-- The next lexeme within a number of steps. -/
def nextWithin : Nat → Lexer → Option Lexeme × Lexer
  | 0, l => (none, l)
  | steps + 1, l =>
    match scan l.table l.cursor with
    | none => (none, { l with cursor := l.cursor.skipBlanks })
    | some (.lexeme x, stop) => (some x, l.take x stop)
    | some (.unrecognized u, stop) => nextWithin steps (l.skip u stop)

/-- The next lexeme, none at the end of the text.  Every step but the last reads at least one
character. -/
def next (l : Lexer) : Option Lexeme × Lexer := l.nextWithin (l.cursor.rest.length + 1)

def drainWithin : Nat → Lexer → List Lexeme × Lexer
  | 0, l => ([], l)
  | steps + 1, l =>
    match l.next with
    | (none, l) => ([], l)
    | (some x, l) =>
      let (xs, l) := drainWithin steps l
      (x :: xs, l)

/-- All lexemes that are left. -/
def drain (l : Lexer) : List Lexeme × Lexer := l.drainWithin (l.cursor.rest.length + 1)

end Lexer

/-- The lexemes of a text and the reports of what was not recognized. -/
def tokenize (table : SymbolTable) (text : String) : List Lexeme × List Unrecognized :=
  let (lexemes, l) := (Lexer.ofText table text (.collect [])).drain
  (lexemes, l.sink.reports)

end QueryExpr
