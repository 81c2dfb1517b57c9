/-
The matchers on bytes.

Each matcher takes the indices and the slices that it needs by byte offsets, and any of them
may be a fault.  It gives the number of bytes that it takes, where the matcher on characters
gives the text.
-/
import QueryExpr.Proofs.Checked.Access
import QueryExpr.Token.Matcher

namespace QueryExpr
namespace Checked

open Text

/-- The number of bytes taken and the token they stand for. -/
structure Taken where
  length : Nat
  token : Token
  deriving DecidableEq

abbrev Matcher := SymbolTable → List Char → Checked (Option Taken)

/-- The number of digits that the text starts with. -/
def digitCount (text : List Char) : Nat := ((encoded text).takeWhile isDigitByte).length

/-- The length of the word that the text starts with, zero when there is none. -/
def wordLength (text : List Char) : Checked Nat :=
  let bytes := encoded text
  if bytes.head?.any isWordStartByte then do
    let others ← bytesBetween 1 bytes.length bytes
    .ok (1 + (others.takeWhile isWordPartByte).length)
  else .ok 0

/-- The length of the exponent that the text starts with, zero when there is none. -/
def exponentLength (text : List Char) : Checked Nat :=
  let bytes := encoded text
  if bytes.head?.any (fun b => b == byte 'e' || b == byte 'E') then do
    let sign := if bytes[1]?.any (fun b => b == byte '+' || b == byte '-') then 1 else 0
    let behind ← textFrom (1 + sign) text
    let digits := digitCount behind
    .ok (if digits = 0 then 0 else 1 + sign + digits)
  else .ok 0

/-- One more digit behind the digits of a number. -/
def nextDigit (n : Nat) (b : UInt8) : Checked Nat := do
  let shifted ← word32 (n * 10)
  let digit ← minus b.toNat 48
  word32 (shifted + digit)

/-- The value of digits in a word of 32 bits. -/
def number (bytes : List UInt8) : Checked Nat := bytes.foldlM nextDigit 0

def numberBetween (i j : Nat) (bytes : List UInt8) : Checked Nat := do
  let ds ← bytesBetween i j bytes
  number ds

def followedByDigit (text : List Char) (length : Nat) : Bool :=
  (encoded text)[length]?.any isDigitByte

def int : Matcher := fun _ text =>
  let length := digitCount text
  if length = 0 then .ok none
  else do
    let front ← textTo length text
    .ok ((Integer.fit? (numeral front)).map fun v => ⟨length, .int v⟩)

/-- The length of the mantissa that the text starts with, and whether it has a point. -/
def mantissaLength (text : List Char) : Checked (Option (Nat × Bool)) := do
  let whole := digitCount text
  let behind ← textFrom whole text
  if behind.head? = some '.' then do
    let behind ← textFrom (whole + 1) text
    let fraction := digitCount behind
    .ok (if whole = 0 ∧ fraction = 0 then none else some (whole + 1 + fraction, true))
  else .ok (if whole = 0 then none else some (whole, false))

def float : Matcher := fun _ text => do
  match ← mantissaLength text with
  | none => .ok none
  | some (length, hasPoint) =>
    let behind ← textFrom length text
    let part ← exponentLength behind
    if hasPoint = false ∧ part = 0 then .ok none
    else do
      let front ← textTo (length + part) text
      .ok ((Decimal.float? (String.ofList front)).map fun x => ⟨length + part, .float x⟩)

/-- The place of the closing quote, looked for from `i` on, and whether quotes were doubled on
the way to it. -/
def closing (bytes : List UInt8) (i : Nat) (doubled : Bool) : Checked (Option (Nat × Bool)) :=
  if i < bytes.length then do
    let b ← byteAt i bytes
    if b = byte '\'' then
      if bytes[i + 1]? = some (byte '\'') then closing bytes (i + 2) true
      else .ok (some (i, doubled))
    else closing bytes (i + 1) doubled
  else .ok none
termination_by bytes.length - i

/-- The text with two quotes in a row made one. -/
def undoubled : List Char → List Char
  | '\'' :: '\'' :: rest => '\'' :: undoubled rest
  | c :: rest => c :: undoubled rest
  | [] => []

def string : Matcher := fun _ text =>
  let bytes := encoded text
  if bytes.head? = some (byte '\'') then do
    match ← closing bytes 1 false with
    | none => .ok none
    | some (i, doubled) =>
      let content ← textBetween 1 i text
      let value := if doubled then undoubled content else content
      .ok (some ⟨i + 1, .str (String.ofList value)⟩)
  else .ok none

/-- So many digits and two times two digits from the place `i` on, with a separator between
them. -/
def numbersAt (sep : Char) (width i : Nat) (bytes : List UInt8) : Checked Bool :=
  allOf
    [allBetween isDigitByte i (i + width) bytes, holdsAt (· == byte sep) (i + width) bytes,
      allBetween isDigitByte (i + width + 1) (i + width + 3) bytes,
      holdsAt (· == byte sep) (i + width + 3) bytes,
      allBetween isDigitByte (i + width + 4) (i + width + 6) bytes]

/-- A day in the first ten bytes. -/
def dayPrefix (text : List Char) : Checked (Option Date) :=
  let bytes := encoded text
  if bytes.length < 10 then .ok none
  else do
    let shaped ← numbersAt '-' 4 0 bytes
    if shaped then do
      let year ← numberBetween 0 4 bytes
      let month ← numberBetween 5 7 bytes
      let day ← numberBetween 8 10 bytes
      .ok (Date.of? year month day)
    else .ok none

def date : Matcher := fun _ text => do
  match ← dayPrefix text with
  | none => .ok none
  | some d => .ok (if followedByDigit text 10 then none else some ⟨10, .date d⟩)

/-- The length of a datetime with the fraction it has, and the fraction in billionths. -/
def fraction (text : List Char) : Checked (Nat × Nat) :=
  let bytes := encoded text
  if bytes[19]? = some (byte '.') then do
    let behind ← textFrom 20 text
    let digits := digitCount behind
    if 0 < digits then do
      let kept ← bytesBetween 20 (20 + min digits 9) bytes
      let value ← number kept
      let zeros ← minus 9 kept.length
      let unit ← word32 (Nat.pow 10 zeros)
      let nanos ← word32 (value * unit)
      .ok (20 + digits, nanos)
    else .ok (19, 0)
  else .ok (19, 0)

def datetime : Matcher := fun _ text => do
  let bytes := encoded text
  match ← dayPrefix text with
  | none => .ok none
  | some d =>
    if bytes.length < 19 then .ok none
    else do
      let shaped ← allOf
        [holdsAt (fun b => b == byte 'T' || b == byte ' ') 10 bytes, numbersAt ':' 2 11 bytes]
      if shaped then do
        let (length, nanos) ← fraction text
        if followedByDigit text length then .ok none
        else do
          let hour ← numberBetween 11 13 bytes
          let minute ← numberBetween 14 16 bytes
          let second ← numberBetween 17 19 bytes
          .ok ((Datetime.of? d hour minute second nanos).map fun t => ⟨length, .datetime t⟩)
      else .ok none

def identifier : Matcher := fun _ text => do
  let length ← wordLength text
  if length = 0 then .ok none
  else do
    let front ← textTo length text
    .ok (some ⟨length, .identifier (String.ofList front)⟩)

def keyword : Matcher := fun table text => do
  let length ← wordLength text
  if length = 0 then .ok none
  else do
    let front ← textTo length text
    .ok ((table.keyword? (String.ofList front)).map fun k => ⟨length, .keyword k⟩)

def symbol : Matcher := fun table text =>
  .ok ((table.longestSymbol? text).map fun s => ⟨s.utf8ByteSize, .symbol s⟩)

/-- The matchers in the order in which their tokens are listed. -/
def all : List (String × Matcher) :=
  [("int", int), ("float", float), ("string", string), ("date", date), ("datetime", datetime),
    ("identifier", identifier), ("keyword", keyword), ("symbol", symbol)]

end Checked
end QueryExpr
