/-
The parts of JSON text: blanks, names, strings, and what stands between the items
of a list or the members of an object.

Each reader takes the text from its place on and gives what follows.  Where a
reader cannot recurse on the text itself, it takes a number of steps that is
larger than the text is long.
-/
import QueryExpr.Json.Fault

namespace QueryExpr
namespace Json

def isBlank (c : Char) : Bool := c == ' ' || c == '\n' || c == '\t' || c == '\r'

def skipBlanks (text : List Char) : List Char := text.dropWhile isBlank

/-- The remaining letters of a name whose first letter was read. -/
def name : List Char → List Char → Except Fault (List Char)
  | [], rest => .ok rest
  | _ :: _, [] => .error (.atEnd .endInValue)
  | letter :: letters, c :: rest =>
    if c = letter then name letters rest else .error (.within (c :: rest) .expectedName)

def hexValue? (c : Char) : Option Nat :=
  if c.isDigit then some (c.toNat - '0'.toNat)
  else if 'a' ≤ c ∧ c ≤ 'f' then some (c.toNat - 'a'.toNat + 10)
  else if 'A' ≤ c ∧ c ≤ 'F' then some (c.toNat - 'A'.toNat + 10)
  else none

def hexNumber? (a b c d : Char) : Option Nat := do
  let a ← hexValue? a
  let b ← hexValue? b
  let c ← hexValue? c
  let d ← hexValue? d
  some (((a * 16 + b) * 16 + c) * 16 + d)

/-- Four hexadecimal digits.  Without four bytes left the text ends too early. -/
def fourHex (text : List Char) : Except Fault (Nat × List Char) :=
  let refused : Except Fault (Nat × List Char) :=
    if Text.byteSize text < 4 then .error (.atEnd .endInString)
    else .error ⟨.invalidEscape, Text.byteSize text - 4⟩
  match text with
  | a :: b :: c :: d :: rest =>
    match hexNumber? a b c d with
    | some n => .ok (n, rest)
    | none => refused
  | _ => refused

def isHighSurrogate (n : Nat) : Bool := 0xD800 ≤ n && n ≤ 0xDBFF

def isLowSurrogate (n : Nat) : Bool := 0xDC00 ≤ n && n ≤ 0xDFFF

/-- The second half of a pair of surrogates. -/
def lowHalf (high : Nat) : List Char → Except Fault (Char × List Char)
  | [] => .error (.atEnd .endInString)
  | '\\' :: rest =>
    match rest with
    | [] => .error (.atEnd .endInString)
    | 'u' :: rest => do
      let (low, rest) ← fourHex rest
      if isLowSurrogate low then
        .ok (Char.ofNat (0x10000 + (high - 0xD800) * 0x400 + (low - 0xDC00)), rest)
      else .error (.before rest .loneSurrogate)
    | _ => .error (.within rest .unfinishedSurrogate)
  | rest => .error (.within rest .unfinishedSurrogate)

/-- The character of an escape by code unit, the letter before the digits being read. -/
def codeUnit (text : List Char) : Except Fault (Char × List Char) := do
  let (n, rest) ← fourHex text
  if isLowSurrogate n then .error (.before rest .loneSurrogate)
  else if isHighSurrogate n then lowHalf n rest
  else .ok (Char.ofNat n, rest)

/-- The character of an escape whose backslash was read. -/
def escape : List Char → Except Fault (Char × List Char)
  | [] => .error (.atEnd .endInString)
  | c :: rest =>
    if c = '"' ∨ c = '\\' ∨ c = '/' then .ok (c, rest)
    else if c = 'b' then .ok ('\x08', rest)
    else if c = 'f' then .ok ('\x0c', rest)
    else if c = 'n' then .ok ('\n', rest)
    else if c = 'r' then .ok ('\r', rest)
    else if c = 't' then .ok ('\t', rest)
    else if c = 'u' then codeUnit rest
    else .error (.within (c :: rest) .invalidEscape)

/-- The characters of a string whose opening quote was read, up to its closing quote. -/
def stringBody : Nat → List Char → Except Fault (List Char × List Char)
  | 0, _ => .error (.atEnd .endInString)
  | _ + 1, [] => .error (.atEnd .endInString)
  | steps + 1, c :: rest =>
    if c = '"' then .ok ([], rest)
    else if c = '\\' then do
      let (x, rest) ← escape rest
      let (xs, rest) ← stringBody steps rest
      .ok (x :: xs, rest)
    else if c.toNat < 0x20 then .error (.before rest .controlCharacter)
    else do
      let (xs, rest) ← stringBody steps rest
      .ok (c :: xs, rest)

/-- Whether another entry follows, and the text from there on. -/
inductive Next where
  | entry (rest : List Char)
  | closed (rest : List Char)

/-- What follows in a list.  A closing bracket is read. -/
def nextItem (first : Bool) (text : List Char) : Except Fault Next :=
  match skipBlanks text with
  | [] => .error (.atEnd .endInList)
  | ']' :: rest => .ok (.closed rest)
  | c :: rest =>
    if first then .ok (.entry (c :: rest))
    else if c = ',' then
      match skipBlanks rest with
      | [] => .error (.atEnd .endInValue)
      | ']' :: rest => .error (.within (']' :: rest) .trailingComma)
      | rest => .ok (.entry rest)
    else .error (.within (c :: rest) .expectedListEnd)

/-- What follows in an object.  A closing brace or the opening quote of a key is read. -/
def nextMember (first : Bool) (text : List Char) : Except Fault Next :=
  match skipBlanks text with
  | [] => .error (.atEnd .endInObject)
  | '\x7d' :: rest => .ok (.closed rest)
  | c :: rest =>
    if first then
      if c = '"' then .ok (.entry rest) else .error (.within (c :: rest) .keyNotString)
    else if c = ',' then
      match skipBlanks rest with
      | [] => .error (.atEnd .endInValue)
      | '"' :: rest => .ok (.entry rest)
      | '\x7d' :: rest => .error (.within ('\x7d' :: rest) .trailingComma)
      | rest => .error (.within rest .keyNotString)
    else .error (.within (c :: rest) .expectedObjectEnd)

/-- The colon between a key and its value. -/
def colon (text : List Char) : Except Fault (List Char) :=
  match skipBlanks text with
  | [] => .error (.atEnd .endInObject)
  | ':' :: rest => .ok rest
  | rest => .error (.within rest .expectedColon)

/-- Nothing but blanks is left. -/
def finished (text : List Char) : Except Fault Unit :=
  match skipBlanks text with
  | [] => .ok ()
  | rest => .error (.within rest .trailingText)

end Json
end QueryExpr
