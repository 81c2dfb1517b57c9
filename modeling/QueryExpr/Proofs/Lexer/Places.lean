/-
Places in a text.

The offset of a place says where it is.  Its line and its column follow from that: they
count the newlines in front of it and the characters since the last of them.  A cursor
stands at a place of its text whatever was done with it, so two cursors of one text that
differ at all differ in their offsets.
-/
import Mathlib.Data.List.Induction
import QueryExpr.Proofs.Lexer.Reading

namespace QueryExpr

namespace Position

/-- The offset lies between two characters of the text, and line and column count what is in
front of it. -/
structure IsPlace (text : List Char) (p : Position) : Prop where
  offset_le : p.offset ≤ Text.byteSize text
  isBoundary : ∃ before after, text = before ++ after ∧ Text.byteSize before = p.offset
  line_eq : p.line = 1 + (Text.takeBytes p.offset text).count '\n'
  column_eq : p.column =
    1 + ((Text.takeBytes p.offset text).reverse.takeWhile (· != '\n')).length

/-- The column counts back to the last newline.  The induction takes the characters from the
end, as the position does. -/
theorem behind_column (text : List Char) :
    (behind text).column = 1 + (text.reverse.takeWhile (· != '\n')).length := by
  induction text using List.reverseRecOn with
  | nil => rfl
  | append_singleton text c ih =>
    have hstep : behind (text ++ [c]) = (behind text).next c := by
      rw [behind_append]
      rfl
    rw [hstep, List.reverse_append, List.reverse_singleton, List.singleton_append]
    by_cases hc : c = '\n'
    · simp [next, hc]
    · rw [List.takeWhile_cons_of_pos (by simpa using hc), List.length_cons]
      simp only [next, if_neg hc, ih]
      omega

theorem isPlace_behind (before after : List Char) :
    (behind before).IsPlace (before ++ after) := by
  have hfront : Text.takeBytes (behind before).offset (before ++ after) = before := by
    rw [behind_offset, Text.takeBytes_append]
  refine ⟨?_, ⟨before, after, rfl, (behind_offset before).symm⟩, ?_, ?_⟩
  · rw [behind_offset, Text.byteSize_append]
    omega
  · rw [hfront]
    exact line_foldl_next before start
  · rw [hfront]
    exact behind_column before

/-- Places of one text with one offset are the same. -/
theorem IsPlace.unique {text : List Char} {p q : Position} (hp : p.IsPlace text)
    (hq : q.IsPlace text) (h : p.offset = q.offset) : p = q := by
  have hline : p.line = q.line := by rw [hp.line_eq, hq.line_eq, h]
  have hcolumn : p.column = q.column := by rw [hp.column_eq, hq.column_eq, h]
  cases p
  cases q
  simp_all

theorem isPlace_iff {text : List Char} {p : Position} :
    p.IsPlace text ↔ ∃ before after, text = before ++ after ∧ p = behind before := by
  constructor
  · intro h
    obtain ⟨before, after, rfl, hoffset⟩ := h.isBoundary
    refine ⟨before, after, rfl, h.unique (isPlace_behind before after) ?_⟩
    rw [behind_offset, hoffset]
  · rintro ⟨before, after, rfl, rfl⟩
    exact isPlace_behind before after

end Position

namespace Cursor

/-- The cursor is one of the text: it stands at a place of it, with what follows the place
unread. -/
structure StandsIn (text : List Char) (c : Cursor) : Prop where
  text_eq : c.text = text
  rest_eq : c.rest = Text.dropBytes c.position.offset text
  isPlace : c.position.IsPlace text

theorem standsIn_iff {text : List Char} {c : Cursor} :
    c.StandsIn text ↔ c.text = text ∧ ∃ read, c.HasRead read := by
  constructor
  · intro h
    obtain ⟨before, after, rfl, hposition⟩ := Position.isPlace_iff.mp h.isPlace
    refine ⟨h.text_eq, before, ?_, hposition⟩
    rw [h.text_eq, h.rest_eq, hposition, Position.behind_offset, Text.dropBytes_append]
  · rintro ⟨rfl, read, h⟩
    refine ⟨rfl, ?_, ?_⟩
    · rw [h.text_eq, h.position_eq, Position.behind_offset, Text.dropBytes_append]
    · rw [h.text_eq, h.position_eq]
      exact Position.isPlace_behind read c.rest

theorem standsIn_ofText (text : List Char) : (ofText text).StandsIn text :=
  standsIn_iff.mpr ⟨rfl, [], hasRead_ofText text⟩

namespace StandsIn

variable {text : List Char} {c d : Cursor}

theorem advanceN (n : Nat) (h : c.StandsIn text) : (Cursor.advanceN n c).StandsIn text := by
  obtain ⟨htext, read, hread⟩ := standsIn_iff.mp h
  exact standsIn_iff.mpr ⟨by rw [advanceN_text, htext], _, hread.advanceN n⟩

theorem skipWhile (p : Char → Bool) (h : c.StandsIn text) : (c.skipWhile p).StandsIn text :=
  h.advanceN _

theorem unique (hc : c.StandsIn text) (hd : d.StandsIn text)
    (h : c.position.offset = d.position.offset) : c = d := by
  have htext : c.text = d.text := by rw [hc.text_eq, hd.text_eq]
  have hrest : c.rest = d.rest := by rw [hc.rest_eq, hd.rest_eq, h]
  have hposition := hc.isPlace.unique hd.isPlace h
  cases c
  cases d
  simp_all

end StandsIn
end Cursor

namespace Span

/-- The span lies between two cursors of the text, and it cuts out of the text what these
have between them, with no byte of it missing. -/
structure IsCut (text : List Char) (s : Span) : Prop where
  start_isPlace : s.start.IsPlace text
  stop_isPlace : s.stop.IsPlace text
  between : ∃ c d : Cursor, c.StandsIn text ∧ d.StandsIn text ∧ s = c.spanTo d ∧
    s.text text = c.textTo d
  parts : ∃ before after, text = before ++ (s.text text ++ after) ∧
    Text.byteSize before = s.start.offset ∧
    Text.byteSize before + Text.byteSize (s.text text) = s.stop.offset

end Span

namespace Cursor

/-- A cursor and the one that some characters of it are read with have a span between them. -/
theorem StandsIn.isCut_advanceN {text : List Char} {c : Cursor} (h : c.StandsIn text) (n : Nat) :
    (c.spanTo (Cursor.advanceN n c)).IsCut text := by
  have hstop := h.advanceN n
  obtain ⟨htext, read, hread⟩ := standsIn_iff.mp h
  have hread' := hread.advanceN n
  have hcut : text = read ++ (c.rest.take n ++ (Cursor.advanceN n c).rest) := by
    rw [← List.append_assoc, ← hread'.text_eq, advanceN_text, htext]
  have hspan := hread.spanTo hread'
  have htaken : (c.spanTo (Cursor.advanceN n c)).text text = c.rest.take n := by
    rw [hspan]
    exact hcut ▸ Span.behind_text read _ _
  refine ⟨h.isPlace, hstop.isPlace, ⟨c, _, h, hstop, rfl, ?_⟩,
    read, (Cursor.advanceN n c).rest, ?_, ?_, ?_⟩
  · rw [htaken, hread.textTo hread' (advanceN_text n c)]
  · rw [htaken]
    exact hcut
  · rw [hspan, Span.behind_start_offset]
  · rw [htaken, hspan, Span.behind_stop_offset]

end Cursor

/-- What may be done with a cursor.  `restore i` goes back to the snapshot taken behind `i`
others. -/
inductive Move where
  | advance
  | advanceN (count : Nat) (positive : 0 < count)
  | skipBlanks
  | snapshot
  | restore (index : Nat)

/-- A cursor at work with the snapshots that were taken of it, the oldest first. -/
structure Reader where
  cursor : Cursor
  snapshots : List Cursor

namespace Reader

def ofText (text : List Char) : Reader := { cursor := Cursor.ofText text, snapshots := [] }

def move (r : Reader) : Move → Reader
  | .advance => { r with cursor := r.cursor.advance }
  | .advanceN count _ => { r with cursor := r.cursor.advanceN count }
  | .skipBlanks => { r with cursor := r.cursor.skipBlanks }
  | .snapshot => { r with snapshots := r.snapshots ++ [r.cursor] }
  | .restore index => { r with cursor := r.snapshots[index]?.getD r.cursor }

def run (r : Reader) (moves : List Move) : Reader := moves.foldl move r

def cursors (r : Reader) : List Cursor := r.cursor :: r.snapshots

variable {text : List Char} {r : Reader}

theorem standsIn_move (h : ∀ c ∈ r.cursors, c.StandsIn text) (m : Move) :
    ∀ c ∈ (r.move m).cursors, c.StandsIn text := by
  have hcursor : r.cursor.StandsIn text := h r.cursor List.mem_cons_self
  have hsnapshots : ∀ c ∈ r.snapshots, c.StandsIn text :=
    fun c hc => h c (List.mem_cons_of_mem _ hc)
  cases m with
  | advance => exact List.forall_mem_cons.mpr ⟨hcursor.advanceN 1, hsnapshots⟩
  | advanceN count _ => exact List.forall_mem_cons.mpr ⟨hcursor.advanceN count, hsnapshots⟩
  | skipBlanks => exact List.forall_mem_cons.mpr ⟨hcursor.skipWhile _, hsnapshots⟩
  | snapshot =>
    refine List.forall_mem_cons.mpr ⟨hcursor, List.forall_mem_append.mpr ⟨hsnapshots, ?_⟩⟩
    exact List.forall_mem_singleton.mpr hcursor
  | restore index =>
    refine List.forall_mem_cons.mpr ⟨?_, hsnapshots⟩
    show (r.snapshots[index]?.getD r.cursor).StandsIn text
    cases hfound : r.snapshots[index]? with
    | none => exact hcursor
    | some c => exact hsnapshots c (List.mem_of_getElem? hfound)

theorem standsIn_run (h : ∀ c ∈ r.cursors, c.StandsIn text) (moves : List Move) :
    ∀ c ∈ (r.run moves).cursors, c.StandsIn text := by
  induction moves generalizing r with
  | nil => exact h
  | cons m moves ih => exact ih (standsIn_move h m)

/-- The cursors of a text are those that moves lead to.  Where a cursor stands, going as many
characters forward from the start leads. -/
theorem mem_cursors_run_iff {c : Cursor} :
    (∃ moves, c ∈ ((ofText text).run moves).cursors) ↔ c.StandsIn text := by
  constructor
  · rintro ⟨moves, hc⟩
    refine standsIn_run ?_ moves c hc
    exact List.forall_mem_singleton.mpr (Cursor.standsIn_ofText text)
  · intro h
    obtain ⟨htext, read, hread⟩ := Cursor.standsIn_iff.mp h
    have hstart := (Cursor.hasRead_ofText text).advanceN read.length
    have htake : (Cursor.ofText text).rest.take read.length = read := by
      show text.take read.length = read
      rw [← htext, hread.text_eq, List.take_left]
    have hsame : Cursor.advanceN read.length (Cursor.ofText text) = c := by
      refine ((Cursor.standsIn_ofText text).advanceN _).unique h ?_
      rw [hstart.position_eq, htake, List.nil_append, hread.position_eq]
    rcases Nat.eq_zero_or_pos read.length with hzero | hpos
    · rw [hzero] at hsame
      exact ⟨[], List.mem_singleton.mpr hsame.symm⟩
    · exact ⟨[.advanceN read.length hpos], List.mem_singleton.mpr hsame.symm⟩

end Reader

end QueryExpr
