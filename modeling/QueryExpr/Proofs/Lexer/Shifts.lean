/-
Findings farther down.

What stands behind some lines of a text stands farther down by the bytes and by the number of
these lines, in the same columns.  Nothing else about a finding depends on what was read
before it.
-/
import QueryExpr.Proofs.Lexer.MaximalMunch

namespace QueryExpr

namespace Position

/-- The position so many bytes and lines farther down. -/
def shift (bytes lines : Nat) (p : Position) : Position :=
  { offset := p.offset + bytes, line := p.line + lines, column := p.column }

variable {bytes lines : Nat}

theorem next_shift (p : Position) (c : Char) :
    (p.shift bytes lines).next c = (p.next c).shift bytes lines := by
  by_cases hc : c = '\n'
  · simp only [next, if_pos hc, shift, mk.injEq, and_true]
    omega
  · simp only [next, if_neg hc, shift, mk.injEq, and_true]
    omega

theorem foldl_next_shift (text : List Char) (p : Position) :
    text.foldl next (p.shift bytes lines) = (text.foldl next p).shift bytes lines := by
  induction text generalizing p with
  | nil => rfl
  | cons c rest ih => rw [List.foldl_cons, next_shift, ih, List.foldl_cons]

/-- Behind a newline a line starts, farther down by what the newline ends. -/
theorem behind_newline (front : List Char) :
    behind (front ++ ['\n']) =
      start.shift (Text.byteSize front + 1) (front.count '\n' + 1) := by
  have hoffset : (behind front).offset = Text.byteSize front := behind_offset front
  have hline : (behind front).line = 1 + front.count '\n' := line_foldl_next front start
  rw [behind_append]
  show next (behind front) '\n' = _
  simp only [next, if_true, shift, start, mk.injEq, and_true, hoffset, hline]
  refine ⟨?_, by omega⟩
  show Text.byteSize front + 1 = _
  omega

theorem behind_append_newline (front text : List Char) :
    behind (front ++ '\n' :: text) =
      (behind text).shift (Text.byteSize front + 1) (front.count '\n' + 1) := by
  rw [List.append_cons, behind_append, behind_newline, foldl_next_shift]
  rfl

end Position

namespace Span

def shift (bytes lines : Nat) (s : Span) : Span :=
  { start := s.start.shift bytes lines, stop := s.stop.shift bytes lines }

@[simp] theorem length_shift (bytes lines : Nat) (s : Span) :
    (s.shift bytes lines).length = s.length := Nat.add_sub_add_right _ bytes _

theorem behind_append_newline (front before taken : List Char) :
    behind (front ++ '\n' :: before) taken =
      (behind before taken).shift (Text.byteSize front + 1) (front.count '\n' + 1) := by
  simp only [behind, shift, List.append_assoc, List.cons_append, Position.behind_append_newline]

end Span

def Lexeme.shift (bytes lines : Nat) (l : Lexeme) : Lexeme :=
  { l with span := l.span.shift bytes lines }

def Unrecognized.shift (bytes lines : Nat) (u : Unrecognized) : Unrecognized :=
  { u with span := u.span.shift bytes lines }

namespace Finding

def shift (bytes lines : Nat) : Finding → Finding
  | lexeme l => lexeme (l.shift bytes lines)
  | unrecognized u => unrecognized (u.shift bytes lines)

theorem filterMap_lexeme?_shift (bytes lines : Nat) (fs : List Finding) :
    (fs.map (shift bytes lines)).filterMap lexeme? =
      (fs.filterMap lexeme?).map (Lexeme.shift bytes lines) := by
  rw [List.filterMap_map, List.map_filterMap]
  congr 1
  funext f
  cases f <;> rfl

theorem filterMap_unrecognized?_shift (bytes lines : Nat) (fs : List Finding) :
    (fs.map (shift bytes lines)).filterMap unrecognized? =
      (fs.filterMap unrecognized?).map (Unrecognized.shift bytes lines) := by
  rw [List.filterMap_map, List.map_filterMap]
  congr 1
  funext f
  cases f <;> rfl

variable {table : SymbolTable} {before taken after : List Char} {f : Finding}

theorem IsRight.shift (front : List Char) (h : f.IsRight table before taken after) :
    (f.shift (Text.byteSize front + 1) (front.count '\n' + 1)).IsRight table
      (front ++ '\n' :: before) taken after := by
  cases f with
  | lexeme l =>
    have hl : l.IsLongest table before taken after := h
    constructor
    case span_eq => rw [Span.behind_append_newline, ← hl.span_eq]; rfl
    case reached => simpa only [Lexeme.shift, Span.length_shift] using hl.reached
    case greatest => simpa only [Lexeme.shift, Span.length_shift] using hl.greatest
    case candidates_eq => simpa only [Lexeme.shift, Span.length_shift] using hl.candidates_eq
  | unrecognized u =>
    have hu : u.IsUnmatched table before taken after := h
    constructor
    case span_eq => rw [Span.behind_append_newline, ← hu.span_eq]; rfl
    case text_eq => exact hu.text_eq
    case unmatched => exact hu.unmatched
    case unbroken => exact hu.unbroken
    case ended => exact hu.ended

end Finding

theorem Segmented.shift {table : SymbolTable} {before text : List Char} {fs : List Finding}
    (front : List Char) (h : Segmented table before text fs) :
    Segmented table (front ++ '\n' :: before) text
      (fs.map (Finding.shift (Text.byteSize front + 1) (front.count '\n' + 1))) := by
  induction h with
  | blank hblank => exact .blank hblank
  | found hblanks hne hf tail ih =>
    refine .found hblanks hne ?_ ?_
    · simpa only [List.append_assoc, List.cons_append] using hf.shift front
    · simpa only [List.append_assoc, List.cons_append] using ih

end QueryExpr
