/-
Reading dates and datetimes that stand alone.

A format says which fields stand where.  Blanks may stand before every number, and
leading zeros may be missing.  A year without a sign has at most four digits, with a
sign any number of them, and a fraction may be left out.  What is out of its own
range is refused as soon as it is read.  A day that does not exist is noticed only
once the whole text is read.
-/
import QueryExpr.Calendar.Datetime
import QueryExpr.Text.Blank

namespace QueryExpr
namespace Calendar

/-- Why a text is not a date or a datetime. -/
inductive Fault where
  | outOfRange
  | invalid
  | tooShort
  | tooLong
  deriving DecidableEq

def Fault.message : Fault → String
  | .outOfRange => "input is out of range"
  | .invalid => "input contains invalid characters"
  | .tooShort => "premature end of input"
  | .tooLong => "trailing input"

/-- No count of digits may exceed what 63 bits hold. -/
def maxNumber : Nat := 0x7FFF_FFFF_FFFF_FFFF

/-- A number in front of the text, given its digits. -/
def number (ds rest : List Char) : Except Fault (Nat × List Char) :=
  if ds.isEmpty then
    if rest.isEmpty then .error .tooShort else .error .invalid
  else if maxNumber < Text.numeral ds then .error .outOfRange
  else .ok (Text.numeral ds, rest)

/-- At least one digit and at most `width` of them. -/
def numberOfWidth (width : Nat) (text : List Char) : Except Fault (Nat × List Char) :=
  let ds := Text.digits (text.take width)
  number ds (text.drop ds.length)

/-- At least one digit and as many as there are. -/
def numberOfAnyWidth (text : List Char) : Except Fault (Nat × List Char) :=
  number (Text.digits text) (Text.afterDigits text)

/-- A number of at most two digits between `low` and `high`, blanks in front skipped. -/
def field (low high : Nat) (text : List Char) : Except Fault (Nat × List Char) := do
  let (n, rest) ← numberOfWidth 2 (Text.trimStart text)
  if low ≤ n ∧ n ≤ high then .ok (n, rest) else .error .outOfRange

/-- The year.  It must fit a signed word of 32 bits to be read at all. -/
def year (text : List Char) : Except Fault (Int × List Char) := do
  let (y, rest) ← match Text.trimStart text with
    | '-' :: rest => (numberOfAnyWidth rest).map fun (n, rest) => (-(n : Int), rest)
    | '+' :: rest => (numberOfAnyWidth rest).map fun (n, rest) => ((n : Int), rest)
    | text => (numberOfWidth 4 text).map fun (n, rest) => ((n : Int), rest)
  if -0x8000_0000 ≤ y ∧ y < 0x8000_0000 then .ok (y, rest) else .error .outOfRange

/-- One given character. -/
def separator (c : Char) : List Char → Except Fault (List Char)
  | [] => .error .tooShort
  | d :: rest => if d = c then .ok rest else .error .invalid

/-- The fraction of a second in nanoseconds.  Digits beyond the ninth are dropped. -/
def fraction : List Char → Except Fault (Nat × List Char)
  | '.' :: text => do
    let ds := Text.digits (text.take 9)
    let (n, rest) ← number ds (text.drop ds.length)
    .ok (n * Nat.pow 10 (9 - ds.length), Text.afterDigits rest)
  | text => .ok (0, text)

def finished (text : List Char) : Except Fault Unit :=
  if text.isEmpty then .ok () else .error .tooLong

/-- The fields that a format can name, not yet checked against calendar and clock. -/
structure Fields where
  year : Int := 0
  month : Nat := 0
  day : Nat := 0
  hour : Nat := 0
  minute : Nat := 0
  second : Nat := 0
  nanos : Nat := 0

/-- The parts of a date and a time that are numbers of at most two digits. -/
inductive Part where
  | month
  | day
  | hour
  | minute
  | second

/-- The least and the greatest number of a part.  Second 60 is a leap second. -/
def Part.range : Part → Nat × Nat
  | .month => (1, 12)
  | .day => (1, 31)
  | .hour => (0, 23)
  | .minute => (0, 59)
  | .second => (0, 60)

def Fields.set (fields : Fields) (n : Nat) : Part → Fields
  | .month => { fields with month := n }
  | .day => { fields with day := n }
  | .hour => { fields with hour := n }
  | .minute => { fields with minute := n }
  | .second => { fields with second := n }

/-- What stands at one place of a format. -/
inductive Piece where
  | year
  | part (p : Part)
  | fraction
  | letter (c : Char)

/-- The pieces of a format.  A percent sign marks what is read into a field. -/
def pieces : List Char → List Piece
  | '%' :: 'Y' :: format => .year :: pieces format
  | '%' :: 'm' :: format => .part .month :: pieces format
  | '%' :: 'd' :: format => .part .day :: pieces format
  | '%' :: 'H' :: format => .part .hour :: pieces format
  | '%' :: 'M' :: format => .part .minute :: pieces format
  | '%' :: 'S' :: format => .part .second :: pieces format
  | '%' :: '.' :: 'f' :: format => .fraction :: pieces format
  | c :: format => .letter c :: pieces format
  | [] => []

/-- Reads one piece in front of the text. -/
def Piece.read (piece : Piece) (fields : Fields) (text : List Char) :
    Except Fault (Fields × List Char) :=
  match piece with
  | .year => (Calendar.year text).map fun (n, rest) => ({ fields with year := n }, rest)
  | .part p => (field p.range.1 p.range.2 text).map fun (n, rest) => (fields.set n p, rest)
  | .fraction => (Calendar.fraction text).map fun (n, rest) => ({ fields with nanos := n }, rest)
  | .letter c => (separator c text).map fun rest => (fields, rest)

def readPieces : List Piece → Fields → List Char → Except Fault (Fields × List Char)
  | [], fields, text => .ok (fields, text)
  | piece :: format, fields, text => do
    let (fields, rest) ← piece.read fields text
    readPieces format fields rest

/-- The fields of a text that has the format and nothing behind it. -/
def readFields (format : String) (text : List Char) : Except Fault Fields := do
  let (fields, rest) ← readPieces (pieces format.toList) {} text
  finished rest
  .ok fields

def dateFormat : String := "%Y-%m-%d"

def datetimeFormat : String := "%Y-%m-%dT%H:%M:%S%.f"

def checkDay (fields : Fields) : Except Fault Date :=
  match Date.of? fields.year fields.month fields.day with
  | some date => .ok date
  | none => .error .outOfRange

/-- Reads a text that is a date and nothing else. -/
def readDate (text : List Char) : Except Fault Date :=
  readFields dateFormat text >>= checkDay

/-- Second 60 is the leap second behind second 59. -/
def checkTime (date : Date) (hour minute second nanos : Nat) : Except Fault Datetime :=
  let time := if second = 60 then Datetime.of? date hour minute 59 (nanosPerSecond + nanos)
    else Datetime.of? date hour minute second nanos
  match time with
  | some time => .ok time
  | none => .error .outOfRange

/-- The first space of the text becomes the letter between date and time. -/
def joinAtSpace : List Char → List Char
  | [] => []
  | c :: rest => if c = ' ' then 'T' :: rest else c :: joinAtSpace rest

/-- Reads a text that is a datetime and nothing else. -/
def readDatetime (text : List Char) : Except Fault Datetime := do
  let fields ← readFields datetimeFormat (joinAtSpace text)
  let date ← checkDay fields
  checkTime date fields.hour fields.minute fields.second fields.nanos

end Calendar
end QueryExpr
