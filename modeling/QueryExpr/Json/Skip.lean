/-
Passing over JSON values that nobody wants.

Only their form is looked at.  Numbers may be of any size, code units need not make
characters, and nothing limits the depth.
-/
import QueryExpr.Json.Scan
import QueryExpr.Text.Digits

namespace QueryExpr
namespace Json

def passHex (text : List Char) : Except Fault (List Char) := (fourHex text).map (·.2)

/-- Passes over an escape whose backslash was read. -/
def passEscape : List Char → Except Fault (List Char)
  | [] => .error (.atEnd .endInString)
  | c :: rest =>
    if c ∈ ['"', '\\', '/', 'b', 'f', 'n', 'r', 't'] then .ok rest
    else if c = 'u' then passHex rest
    else .error (.within (c :: rest) .invalidEscape)

/-- Passes over a string whose opening quote was read. -/
def passString : Nat → List Char → Except Fault (List Char)
  | 0, _ => .error (.atEnd .endInString)
  | _ + 1, [] => .error (.atEnd .endInString)
  | steps + 1, c :: rest =>
    if c = '"' then .ok rest
    else if c = '\\' then do passString steps (← passEscape rest)
    else if c.toNat < 0x20 then .error (.before (c :: rest) .controlCharacter)
    else passString steps rest

def passExponent (text : List Char) : Except Fault (List Char) :=
  let text := match text with
    | '+' :: rest => rest
    | '-' :: rest => rest
    | rest => rest
  match text with
  | [] => .error (.atEnd .invalidNumber)
  | c :: rest =>
    if c.isDigit then .ok (Text.afterDigits rest) else .error (.within (c :: rest) .invalidNumber)

def passFraction (text : List Char) : Except Fault (List Char) :=
  if Text.startsWithDigit text then
    match Text.afterDigits text with
    | 'e' :: rest => passExponent rest
    | 'E' :: rest => passExponent rest
    | rest => .ok rest
  else .error (.within text .invalidNumber)

def passAfterWhole : List Char → Except Fault (List Char)
  | '.' :: rest => passFraction rest
  | 'e' :: rest => passExponent rest
  | 'E' :: rest => passExponent rest
  | rest => .ok rest

/-- Passes over a number whose sign was read. -/
def passNumber : List Char → Except Fault (List Char)
  | [] => .error (.atEnd .invalidNumber)
  | c :: rest =>
    if c = '0' then
      if Text.startsWithDigit rest then .error (.within rest .invalidNumber)
      else passAfterWhole rest
    else if c.isDigit then passAfterWhole (Text.afterDigits rest)
    else .error (.within (c :: rest) .invalidNumber)

/-- Passes over the key of a member, up to its value. -/
def passKey (steps : Nat) (text : List Char) : Except Fault (List Char) :=
  match skipBlanks text with
  | [] => .error (.atEnd .endInObject)
  | '"' :: rest => do colon (← passString steps rest)
  | rest => .error (.within rest .keyNotString)

mutual

def passValue : Nat → List Char → Except Fault (List Char)
  | 0, _ => .error (.atEnd .endInValue)
  | steps + 1, text =>
    match skipBlanks text with
    | [] => .error (.atEnd .endInValue)
    | c :: rest =>
      if c = 'n' then name ['u', 'l', 'l'] rest
      else if c = 't' then name ['r', 'u', 'e'] rest
      else if c = 'f' then name ['a', 'l', 's', 'e'] rest
      else if c = '-' then passNumber rest
      else if c.isDigit then passNumber (c :: rest)
      else if c = '"' then passString steps rest
      else if c = '[' then passItems steps true rest
      else if c = '\x7b' then passMembers steps true rest
      else .error (.within (c :: rest) .expectedValue)
termination_by structural steps => steps

def passItems : Nat → (first : Bool) → List Char → Except Fault (List Char)
  | 0, _, _ => .error (.atEnd .endInList)
  | steps + 1, first, text =>
    match skipBlanks text with
    | [] => .error (.atEnd .endInList)
    | ']' :: rest => .ok rest
    | c :: rest =>
      if first then do passItems steps false (← passValue steps (c :: rest))
      else if c = ',' then do passItems steps false (← passValue steps rest)
      else .error (.within (c :: rest) .expectedListEnd)
termination_by structural steps => steps

def passMembers : Nat → (first : Bool) → List Char → Except Fault (List Char)
  | 0, _, _ => .error (.atEnd .endInObject)
  | steps + 1, first, text =>
    match skipBlanks text with
    | [] => .error (.atEnd .endInObject)
    | '\x7d' :: rest => .ok rest
    | c :: rest =>
      if first then do
        let rest ← passKey steps (c :: rest)
        passMembers steps false (← passValue steps rest)
      else if c = ',' then do
        let rest ← passKey steps rest
        passMembers steps false (← passValue steps rest)
      else .error (.within (c :: rest) .expectedObjectEnd)
termination_by structural steps => steps

end

end Json
end QueryExpr
