/-
Matchers: what a text may start with.

Each matcher looks at the front of a text for one kind of token and takes as much
as the notation of that kind allows.  A matcher may look at the character behind
its match, and it may refuse a text on account of it.
-/
import QueryExpr.Decimal.Reading
import QueryExpr.Integer
import QueryExpr.SymbolTable.Basic
import QueryExpr.Token

namespace QueryExpr

/-- The text taken and the token it stands for. -/
structure Match where
  text : List Char
  token : Token

/-- The number of bytes taken. -/
def Match.length (m : Match) : Nat := Text.byteSize m.text

abbrev Matcher := SymbolTable → List Char → Option Match

namespace Matcher

/-- Digits whose value fits a signed word. -/
def int : Matcher := fun _ text =>
  let ds := Text.digits text
  if ds.isEmpty then none
  else (Integer.fit? (Text.numeral ds)).map fun v => ⟨ds, .int v⟩

/-- A decimal with a point, an exponent or both. -/
def float : Matcher := fun _ text => do
  let m ← Decimal.mantissa? text
  match Decimal.exponentPart? m.rest with
  | some (part, e) => some ⟨m.text ++ part, .float (m.toFloat e)⟩
  | none => if m.hasPoint then some ⟨m.text, .float (m.toFloat 0)⟩ else none

/-- The text up to the closing quote and the value it stands for, when the opening quote was
taken.  Two quotes in a row stand for one and do not close. -/
def stringBody? : List Char → Option (List Char × List Char)
  | [] => none
  | '\'' :: '\'' :: rest =>
    (stringBody? rest).map fun (text, value) => ('\'' :: '\'' :: text, '\'' :: value)
  | '\'' :: _ => some (['\''], [])
  | c :: rest => (stringBody? rest).map fun (text, value) => (c :: text, c :: value)

def string : Matcher := fun _ text =>
  match text with
  | '\'' :: rest =>
    (stringBody? rest).map fun (text, value) => ⟨'\'' :: text, .str (String.ofList value)⟩
  | _ => none

/-- A day written with four, two and two digits, and what follows it. -/
def day? (text : List Char) : Option (Date × List Char) := do
  let (year, rest) ← Text.fixedDigits? 4 text
  let rest ← Text.literal? '-' rest
  let (month, rest) ← Text.fixedDigits? 2 rest
  let rest ← Text.literal? '-' rest
  let (day, rest) ← Text.fixedDigits? 2 rest
  let date ← Date.of? year month day
  some (date, rest)

/-- A day that no further digit follows. -/
def date : Matcher := fun _ text => do
  let (date, rest) ← day? text
  if Text.startsWithDigit rest then none else some ⟨text.take 10, .date date⟩

/-- The letter or the space between a day and a time. -/
def dayEnd? : List Char → Option (List Char)
  | 'T' :: rest => some rest
  | ' ' :: rest => some rest
  | _ => none

/-- Hour, minute and second in two digits each, and what follows them. -/
def clock? (text : List Char) : Option ((Nat × Nat × Nat) × List Char) := do
  let (hour, rest) ← Text.fixedDigits? 2 text
  let rest ← Text.literal? ':' rest
  let (minute, rest) ← Text.fixedDigits? 2 rest
  let rest ← Text.literal? ':' rest
  let (second, rest) ← Text.fixedDigits? 2 rest
  some ((hour, minute, second), rest)

/-- The digits behind a point, none when there is no point or no digit behind it. -/
def fractionDigits : List Char → List Char
  | '.' :: rest => Text.digits rest
  | _ => []

/-- The first nine digits of a fraction in billionths. -/
def billionths (ds : List Char) : Nat :=
  let kept := ds.take 9
  Text.numeral kept * Nat.pow 10 (9 - kept.length)

/-- A day and a time of day that no further digit follows. -/
def datetime : Matcher := fun _ text => do
  let (date, rest) ← day? text
  let rest ← dayEnd? rest
  let ((hour, minute, second), rest) ← clock? rest
  let ds := fractionDigits rest
  let length := if ds.isEmpty then 19 else 20 + ds.length
  if Text.startsWithDigit (text.drop length) then none
  else do
    let t ← Datetime.of? date hour minute second (billionths ds)
    some ⟨text.take length, .datetime t⟩

def identifier : Matcher := fun _ text =>
  let w := Text.word text
  if w.isEmpty then none else some ⟨w, .identifier (String.ofList w)⟩

/-- A word that the table has as a keyword. -/
def keyword : Matcher := fun table text =>
  let w := Text.word text
  if w.isEmpty then none
  else (table.keyword? (String.ofList w)).map fun k => ⟨w, .keyword k⟩

def symbol : Matcher := fun table text =>
  (table.longestSymbol? text).map fun s => ⟨s.toList, .symbol s⟩

/-- The matchers in the order in which their tokens are listed. -/
def all : List (String × Matcher) :=
  [("int", int), ("float", float), ("string", string), ("date", date), ("datetime", datetime),
    ("identifier", identifier), ("keyword", keyword), ("symbol", symbol)]

/-- Every match at the front of the text. -/
def allMatches (table : SymbolTable) (text : List Char) : List Match :=
  all.filterMap fun (_, m) => m table text

end Matcher

end QueryExpr
