/-
What can be wrong with a JSON text, and where.

A reader that stops knows how many bytes it has not read.  The place that a
message names follows from that: the line counts from one, and the column is the
number of bytes of the line in front of the place.  A fault of the character that
comes next is placed behind its first byte.
-/
import QueryExpr.Text.Bytes

namespace QueryExpr
namespace Json

/-- Why a text is not JSON, or not the JSON that was asked for. -/
inductive Cause where
  | endInValue
  | endInString
  | endInList
  | endInObject
  | expectedValue
  | expectedName
  | expectedColon
  | expectedListEnd
  | expectedObjectEnd
  | keyNotString
  | trailingComma
  | trailingText
  | invalidNumber
  | numberOutOfRange
  | invalidEscape
  | loneSurrogate
  | unfinishedSurrogate
  | controlCharacter
  | tooDeep
  | wrongType (found wanted : String)
  | repeatedField (name : String)
  deriving DecidableEq

def Cause.message : Cause → String
  | .endInValue => "EOF while parsing a value"
  | .endInString => "EOF while parsing a string"
  | .endInList => "EOF while parsing a list"
  | .endInObject => "EOF while parsing an object"
  | .expectedValue => "expected value"
  | .expectedName => "expected ident"
  | .expectedColon => "expected `:`"
  | .expectedListEnd => "expected `,` or `]`"
  | .expectedObjectEnd => "expected `,` or `\x7d`"
  | .keyNotString => "key must be a string"
  | .trailingComma => "trailing comma"
  | .trailingText => "trailing characters"
  | .invalidNumber => "invalid number"
  | .numberOutOfRange => "number out of range"
  | .invalidEscape => "invalid escape"
  | .loneSurrogate => "lone leading surrogate in hex escape"
  | .unfinishedSurrogate => "unexpected end of hex escape"
  | .controlCharacter => "control character (\\u0000-\\u001F) found while parsing a string"
  | .tooDeep => "recursion limit exceeded"
  | .wrongType found wanted => "invalid type: " ++ found ++ ", expected " ++ wanted
  | .repeatedField name => "duplicate field `" ++ name ++ "`"

/-- A cause with the number of bytes that were not read. -/
structure Fault where
  cause : Cause
  unread : Nat
  deriving DecidableEq

/-- A fault at the place where `rest` begins. -/
def Fault.before (rest : List Char) (cause : Cause) : Fault := ⟨cause, Text.byteSize rest⟩

/-- A fault of the first byte of `rest`, placed behind it. -/
def Fault.within (rest : List Char) (cause : Cause) : Fault := ⟨cause, Text.byteSize rest - 1⟩

def Fault.atEnd (cause : Cause) : Fault := ⟨cause, 0⟩

/-- A cause with its place in the text. -/
structure Error where
  cause : Cause
  line : Nat
  column : Nat
  deriving DecidableEq

/-- The line and column reached `count` bytes further on. -/
def place : (line column count : Nat) → List Char → Nat × Nat
  | line, column, _, [] => (line, column)
  | line, column, count, c :: rest =>
    if c.utf8Size ≤ count then
      if c = '\n' then place (line + 1) 0 (count - c.utf8Size) rest
      else place line (column + c.utf8Size) (count - c.utf8Size) rest
    else (line, column + count)

def Fault.locate (text : List Char) (f : Fault) : Error :=
  let (line, column) := place 1 0 (Text.byteSize text - f.unread) text
  { cause := f.cause, line, column }

def Error.message (e : Error) : String :=
  e.cause.message ++ " at line " ++ toString e.line ++ " column " ++ toString e.column

end Json
end QueryExpr
