/-
How far a cursor has read.

A cursor that has read a text stands behind it, at the position to which that text
leads, with the rest of its source in front of it.  Every move of a cursor reads on,
so the relation is kept with the text read so far growing at its end.
-/
import QueryExpr.Cursor

namespace QueryExpr

def Position.behind (text : List Char) : Position := text.foldl Position.next Position.start

namespace Position

theorem behind_append (a b : List Char) :
    behind (a ++ b) = b.foldl Position.next (behind a) := List.foldl_append

theorem offset_foldl_next (text : List Char) (p : Position) :
    (text.foldl Position.next p).offset = p.offset + Text.byteSize text := by
  induction text generalizing p with
  | nil => rfl
  | cons c rest ih =>
    rw [List.foldl_cons, ih, next_offset, Text.byteSize_cons, Nat.add_assoc]

@[simp] theorem behind_offset (text : List Char) :
    (behind text).offset = Text.byteSize text := by
  rw [behind, offset_foldl_next]
  exact Nat.zero_add _

theorem line_foldl_next (text : List Char) (p : Position) :
    (text.foldl next p).line = p.line + text.count '\n' := by
  induction text generalizing p with
  | nil => rfl
  | cons c rest ih =>
    rw [List.foldl_cons, ih, List.count_cons]
    by_cases hc : c = '\n'
    · simp only [next, hc, beq_self_eq_true, if_true]
      omega
    · simp [next, hc]

end Position

/-- The span of `taken` behind the text `before`. -/
def Span.behind (before taken : List Char) : Span :=
  { start := Position.behind before, stop := Position.behind (before ++ taken) }

namespace Span

@[simp] theorem behind_start_offset (before taken : List Char) :
    (behind before taken).start.offset = Text.byteSize before := Position.behind_offset before

@[simp] theorem behind_stop_offset (before taken : List Char) :
    (behind before taken).stop.offset = Text.byteSize before + Text.byteSize taken := by
  show (Position.behind (before ++ taken)).offset = _
  rw [Position.behind_offset, Text.byteSize_append]

@[simp] theorem behind_length (before taken : List Char) :
    (behind before taken).length = Text.byteSize taken := by
  rw [length, behind_stop_offset, behind_start_offset, Nat.add_sub_cancel_left]

/-- A span cuts out of the source what it is the span of. -/
theorem behind_text (before taken after : List Char) :
    (behind before taken).text (before ++ (taken ++ after)) = taken := by
  rw [text, behind_start_offset, behind_stop_offset, Text.slice_append]

end Span

namespace Cursor

/-- The cursor has read the text `read` of its source. -/
structure HasRead (c : Cursor) (read : List Char) : Prop where
  text_eq : c.text = read ++ c.rest
  position_eq : c.position = Position.behind read

theorem hasRead_ofText (text : List Char) : (ofText text).HasRead [] := ⟨rfl, rfl⟩

namespace HasRead

variable {c : Cursor} {read : List Char}

theorem advance {x : Char} {rest : List Char} (h : c.HasRead read) (hrest : c.rest = x :: rest) :
    c.advance.HasRead (read ++ [x]) := by
  have hadvance : c.advance = { c with rest := rest, position := c.position.next x } := by
    unfold Cursor.advance
    rw [hrest]
  rw [hadvance]
  refine ⟨?_, ?_⟩
  · show c.text = read ++ [x] ++ rest
    rw [h.text_eq, hrest, List.append_assoc, List.singleton_append]
  · show c.position.next x = _
    rw [h.position_eq, Position.behind_append]
    rfl

theorem advanceN (n : Nat) (h : c.HasRead read) :
    (Cursor.advanceN n c).HasRead (read ++ c.rest.take n) := by
  induction n generalizing c read with
  | zero =>
    rw [List.take_zero, List.append_nil]
    exact h
  | succ n ih =>
    rw [Cursor.advanceN]
    cases hrest : c.rest with
    | nil =>
      have hstay : c.advance = c := by
        unfold Cursor.advance
        rw [hrest]
      rw [hstay]
      simpa [hrest] using ih h
    | cons x rest =>
      have hnext := ih (h.advance hrest)
      rw [advance_rest, hrest] at hnext
      simpa using hnext

theorem skipWhile (p : Char → Bool) (h : c.HasRead read) :
    (c.skipWhile p).HasRead (read ++ c.rest.takeWhile p) := by
  have hnext := h.advanceN (c.rest.takeWhile p).length
  rw [List.prefix_iff_eq_take.mp (List.takeWhile_prefix p)]
  exact hnext

theorem offset_append {stop : Cursor} {taken : List Char} (h : c.HasRead read)
    (hstop : stop.HasRead (read ++ taken)) :
    stop.position.offset = c.position.offset + Text.byteSize taken := by
  rw [h.position_eq, hstop.position_eq, Position.behind_offset, Position.behind_offset,
    Text.byteSize_append]

/-- What two cursors of one source have between them. -/
theorem textTo {stop : Cursor} {taken : List Char} (h : c.HasRead read)
    (hstop : stop.HasRead (read ++ taken)) (htext : stop.text = c.text) :
    c.textTo stop = taken := by
  have hc : c.text = read ++ (taken ++ stop.rest) := by
    rw [← htext, hstop.text_eq, List.append_assoc]
  rw [Cursor.textTo, h.position_eq, hstop.position_eq, hc, Position.behind_offset,
    Position.behind_offset, Text.byteSize_append, Text.slice_append]

theorem spanTo {stop : Cursor} {taken : List Char} (h : c.HasRead read)
    (hstop : stop.HasRead (read ++ taken)) : c.spanTo stop = Span.behind read taken := by
  rw [Cursor.spanTo, h.position_eq, hstop.position_eq, Span.behind]

end HasRead
end Cursor
end QueryExpr
