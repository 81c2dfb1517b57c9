/-
A reading place in a source text.

The cursor keeps the whole text, the part not yet read and the position between
the two.  Every move is a number of single steps, so what a step keeps, every
move keeps.
-/
import QueryExpr.Position
import QueryExpr.Text.Blank

namespace QueryExpr

structure Cursor where
  text : List Char
  rest : List Char
  position : Position
  deriving DecidableEq

namespace Cursor

def ofText (text : List Char) : Cursor := { text, rest := text, position := Position.start }

/-- Nothing is left to read. -/
def isEnd (c : Cursor) : Bool := c.rest.isEmpty

/-- The character under the cursor.  At the end of the text it is NUL. -/
def peek (c : Cursor) : Char := c.rest.headD '\x00'

/-- The cursor stands on a blank. -/
def isBlank (c : Cursor) : Bool :=
  match c.rest with
  | [] => false
  | x :: _ => Text.isBlank x

/-- One character further.  At the end of the text nothing moves. -/
def advance (c : Cursor) : Cursor :=
  match c.rest with
  | [] => c
  | x :: rest => { c with rest := rest, position := c.position.next x }

def advanceN : Nat → Cursor → Cursor
  | 0, c => c
  | n + 1, c => advanceN n c.advance

/-- Past the characters in front that satisfy `p`. -/
def skipWhile (p : Char → Bool) (c : Cursor) : Cursor :=
  c.advanceN (c.rest.takeWhile p).length

def skipBlanks (c : Cursor) : Cursor := c.skipWhile Text.isBlank

/-- The source text from one cursor to a later one of the same text. -/
def textTo (start stop : Cursor) : List Char :=
  Text.slice start.position.offset stop.position.offset start.text

def spanTo (start stop : Cursor) : Span := { start := start.position, stop := stop.position }

theorem advance_text (c : Cursor) : c.advance.text = c.text := by
  unfold advance
  split <;> rfl

theorem advanceN_text (n : Nat) (c : Cursor) : (advanceN n c).text = c.text := by
  induction n generalizing c with
  | zero => rfl
  | succ n ih => rw [advanceN, ih, advance_text]

theorem advance_rest (c : Cursor) : c.advance.rest = c.rest.tail := by
  unfold advance
  split <;> simp_all

/-- Steps forward drop as many characters. -/
theorem advanceN_rest (n : Nat) (c : Cursor) : (advanceN n c).rest = c.rest.drop n := by
  induction n generalizing c with
  | zero => rfl
  | succ n ih => rw [advanceN, ih, advance_rest, List.drop_tail]

theorem skipWhile_rest (p : Char → Bool) (c : Cursor) :
    (c.skipWhile p).rest = c.rest.dropWhile p := by
  rw [skipWhile, advanceN_rest]
  induction c.rest with
  | nil => rfl
  | cons x rest ih =>
    by_cases h : p x = true
    · simp [h, ih]
    · simp [h]

end Cursor

end QueryExpr
