/-
JSON values of a wanted kind: strings and lists of strings.

A value of another kind is described in the fault.  To describe a scalar it has to
be read, so a scalar that is malformed is a fault of its own.
-/
import QueryExpr.Json.Number
import QueryExpr.Json.Printer
import QueryExpr.Text.Quoted

namespace QueryExpr
namespace Json

/-- The words for a number that is not wanted. -/
def Number.describe : Number → String
  | .integer i _ => "integer `" ++ String.ofList (Text.signedDecimal i) ++ "`"
  | .real x _ => "floating point `" ++ String.ofList (layout.write x) ++ "`"

/-- The words for the value that the text begins with.  Of a list or an object nothing is
read. -/
def describe (steps : Nat) : List Char → Except Fault (String × List Char)
  | [] => .error (.atEnd .expectedValue)
  | c :: rest =>
    if c = 'n' then (name ['u', 'l', 'l'] rest).map fun rest => ("null", rest)
    else if c = 't' then (name ['r', 'u', 'e'] rest).map fun rest => ("boolean `true`", rest)
    else if c = 'f' then
      (name ['a', 'l', 's', 'e'] rest).map fun rest => ("boolean `false`", rest)
    else if c = '-' then (unsigned true rest).map fun (n, rest) => (n.describe, rest)
    else if c.isDigit then (unsigned false (c :: rest)).map fun (n, rest) => (n.describe, rest)
    else if c = '"' then
      (stringBody steps rest).map fun (s, rest) =>
        ("string " ++ String.ofList (Text.quoted (String.ofList s)), rest)
    else if c = '[' then .ok ("sequence", c :: rest)
    else if c = '\x7b' then .ok ("map", c :: rest)
    else .error (.within (c :: rest) .expectedValue)

/-- The fault of a value that is not of the wanted kind. -/
def unwanted {α : Type} (steps : Nat) (wanted : String) (text : List Char) :
    Except Fault α := do
  let (found, rest) ← describe steps text
  .error (.before rest (.wrongType found wanted))

def stringValue (steps : Nat) (text : List Char) : Except Fault (String × List Char) :=
  match skipBlanks text with
  | [] => .error (.atEnd .endInValue)
  | '"' :: rest => (stringBody steps rest).map fun (s, rest) => (String.ofList s, rest)
  | rest => unwanted steps "a string" rest

def stringItems : Nat → (first : Bool) → List Char → Except Fault (List String × List Char)
  | 0, _, _ => .error (.atEnd .endInList)
  | steps + 1, first, text => do
    match ← nextItem first text with
    | .closed rest => .ok ([], rest)
    | .entry rest =>
      let (s, rest) ← stringValue steps rest
      let (ss, rest) ← stringItems steps false rest
      .ok (s :: ss, rest)

def stringList (steps : Nat) (text : List Char) : Except Fault (List String × List Char) :=
  match skipBlanks text with
  | [] => .error (.atEnd .endInValue)
  | '[' :: rest => stringItems steps true rest
  | rest => unwanted steps "a sequence" rest

/-- The end of a list that may hold no further item. -/
def listEnd (text : List Char) : Except Fault (List Char) :=
  match skipBlanks text with
  | [] => .error (.atEnd .endInList)
  | ']' :: rest => .ok rest
  | ',' :: rest =>
    match skipBlanks rest with
    | ']' :: rest => .error (.within (']' :: rest) .trailingComma)
    | rest => .error (.within rest .trailingText)
  | rest => .error (.within rest .trailingText)

end Json
end QueryExpr
