/-
Places in a source text.

A position counts bytes from the start of the text, lines from one, and the
characters of the line from one.  A span is the half-open range between two
positions.
-/
import QueryExpr.Text.Bytes

namespace QueryExpr

structure Position where
  offset : Nat
  line : Nat
  column : Nat
  deriving DecidableEq

namespace Position

def start : Position := { offset := 0, line := 1, column := 1 }

instance : Inhabited Position := ⟨start⟩

/-- The position behind a character.  A newline ends its line. -/
def next (p : Position) (c : Char) : Position :=
  if c = '\n' then { offset := p.offset + c.utf8Size, line := p.line + 1, column := 1 }
  else { offset := p.offset + c.utf8Size, line := p.line, column := p.column + 1 }

@[simp] theorem next_offset (p : Position) (c : Char) :
    (p.next c).offset = p.offset + c.utf8Size := by
  unfold next
  split <;> rfl

def display (p : Position) : String := toString p.line ++ ":" ++ toString p.column

end Position

/-- The range from `start` up to, and without, `stop`. -/
structure Span where
  start : Position
  stop : Position
  deriving DecidableEq

namespace Span

instance : Inhabited Span := ⟨⟨Position.start, Position.start⟩⟩

/-- The number of bytes covered. -/
def length (s : Span) : Nat := s.stop.offset - s.start.offset

def isEmpty (s : Span) : Bool := s.length == 0

/-- The part of `source` that the span covers. -/
def text (s : Span) (source : List Char) : List Char :=
  Text.slice s.start.offset s.stop.offset source

def display (s : Span) : String := "[" ++ s.start.display ++ "-" ++ s.stop.display ++ "]"

end Span

end QueryExpr
