/-
Reading a symbol table from JSON.

A table is an object with the members `keywords` and `symbols`, each a list of
strings, or a list of these two lists.  Either may be missing and is empty then.
Other members are passed over, whatever they hold, and a member given twice is
refused.

The table is read in one pass, so that the first fault of the text is the one that
is named, be it in its form or in the kind of a value.
-/
import QueryExpr.Json.Skip
import QueryExpr.Json.Wanted
import QueryExpr.SymbolTable.Basic

namespace QueryExpr
namespace SymbolTable

open Json

/-- The entries of a table that were read so far. -/
structure Entries where
  keywords : Option (List String)
  symbols : Option (List String)

/-- The lists of a table in their order. -/
def listed (steps : Nat) (text : List Char) : Except Fault (Entries × List Char) := do
  match ← nextItem true text with
  | .closed rest => .ok (⟨none, none⟩, rest)
  | .entry rest =>
    let (keywords, rest) ← stringList steps rest
    match ← nextItem false rest with
    | .closed rest => .ok (⟨some keywords, none⟩, rest)
    | .entry rest =>
      let (symbols, rest) ← stringList steps rest
      let rest ← listEnd rest
      .ok (⟨some keywords, some symbols⟩, rest)

/-- The fault of a member that was given before, placed behind the blanks after its key and
behind a brace that ends the object there. -/
def repeated {α : Type} (field : String) (text : List Char) : Except Fault α :=
  match skipBlanks text with
  | '\x7d' :: rest => .error (.before rest (.repeatedField field))
  | rest => .error (.before rest (.repeatedField field))

/-- The members of a table, added to the entries read before. -/
def members : Nat → (first : Bool) → Entries → List Char → Except Fault (Entries × List Char)
  | 0, _, _, _ => .error (.atEnd .endInObject)
  | steps + 1, first, done, text => do
    match ← nextMember first text with
    | .closed rest => .ok (done, rest)
    | .entry rest =>
      let (key, rest) ← stringBody steps rest
      if key = "keywords".toList then
        if done.keywords.isSome then repeated "keywords" rest
        else
          let (ss, rest) ← stringList steps (← colon rest)
          members steps false { done with keywords := some ss } rest
      else if key = "symbols".toList then
        if done.symbols.isSome then repeated "symbols" rest
        else
          let (ss, rest) ← stringList steps (← colon rest)
          members steps false { done with symbols := some ss } rest
      else
        let rest ← passValue steps (← colon rest)
        members steps false done rest

def entries (steps : Nat) (text : List Char) : Except Fault (Entries × List Char) :=
  match skipBlanks text with
  | [] => .error (.atEnd .endInValue)
  | '[' :: rest => listed steps rest
  | '\x7b' :: rest => members steps true ⟨none, none⟩ rest
  | rest => unwanted steps "struct SymbolTableFile" rest

/-- Why a JSON text is not a table. -/
inductive ReadError where
  | json (e : Json.Error)
  | invalid (e : Invalid)

def ReadError.message : ReadError → String
  | .json e => e.message
  | .invalid e => e.message

/-- Reads a table.  Its entries are checked before the text behind it is looked at. -/
def read (text : String) : Except ReadError SymbolTable := do
  let cs := text.toList
  let place (f : Fault) : ReadError := .json (f.locate cs)
  let (found, rest) ← (entries (2 * cs.length + 1) cs).mapError place
  let table ← (ofEntries (found.keywords.getD []) (found.symbols.getD [])).mapError .invalid
  (finished rest).mapError place
  .ok table

end SymbolTable
end QueryExpr
