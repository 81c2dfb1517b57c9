/-
Reading whole JSON values.

Lists and objects may be nested to a fixed depth.  Of several members with one key
the last stays.
-/
import QueryExpr.Json.Number

namespace QueryExpr
namespace Json

/-- How many lists and objects may be open at once. -/
def maxDepth : Nat := 127

mutual

/-- A value.  `room` further lists or objects may be opened. -/
def value : (steps room : Nat) → List Char → Except Fault (Json × List Char)
  | 0, _, _ => .error (.atEnd .endInValue)
  | steps + 1, room, text =>
    match skipBlanks text with
    | [] => .error (.atEnd .endInValue)
    | c :: rest =>
      if c = 'n' then (name ['u', 'l', 'l'] rest).map fun rest => (.null, rest)
      else if c = 't' then (name ['r', 'u', 'e'] rest).map fun rest => (.bool true, rest)
      else if c = 'f' then (name ['a', 'l', 's', 'e'] rest).map fun rest => (.bool false, rest)
      else if c = '-' then (unsigned true rest).map fun (n, rest) => (.number n, rest)
      else if c.isDigit then
        (unsigned false (c :: rest)).map fun (n, rest) => (.number n, rest)
      else if c = '"' then
        (stringBody steps rest).map fun (s, rest) => (.string (String.ofList s), rest)
      else if c = '[' then
        match room with
        | 0 => .error (.within (c :: rest) .tooDeep)
        | room + 1 => (items steps room true rest).map fun (vs, rest) => (.array vs, rest)
      else if c = '\x7b' then
        match room with
        | 0 => .error (.within (c :: rest) .tooDeep)
        | room + 1 => (members steps room true [] rest).map fun (ms, rest) => (.object ms, rest)
      else .error (.within (c :: rest) .expectedValue)
termination_by structural steps => steps

/-- The items of a list up to its closing bracket. -/
def items : (steps room : Nat) → (first : Bool) → List Char →
    Except Fault (List Json × List Char)
  | 0, _, _, _ => .error (.atEnd .endInList)
  | steps + 1, room, first, text => do
    match ← nextItem first text with
    | .closed rest => .ok ([], rest)
    | .entry rest =>
      let (v, rest) ← value steps room rest
      let (vs, rest) ← items steps room false rest
      .ok (v :: vs, rest)
termination_by structural steps => steps

/-- The members of an object up to its closing brace, added to those read before. -/
def members : (steps room : Nat) → (first : Bool) → List (String × Json) → List Char →
    Except Fault (List (String × Json) × List Char)
  | 0, _, _, _, _ => .error (.atEnd .endInObject)
  | steps + 1, room, first, done, text => do
    match ← nextMember first text with
    | .closed rest => .ok (done, rest)
    | .entry rest =>
      let (key, rest) ← stringBody steps rest
      let rest ← colon rest
      let (v, rest) ← value steps room rest
      members steps room false (putMember (String.ofList key) v done) rest
termination_by structural steps => steps

end

/-- The value that a text holds, with nothing behind it but blanks.

Every character costs at most two steps, one for a list or object that it opens and
one for the value that it begins. -/
def document (text : List Char) : Except Fault Json := do
  let (v, rest) ← value (2 * text.length + 1) maxDepth text
  finished rest
  .ok v

/-- Reads a JSON text. -/
def read (text : String) : Except Error Json :=
  (document text.toList).mapError (Fault.locate text.toList)

end Json
end QueryExpr
