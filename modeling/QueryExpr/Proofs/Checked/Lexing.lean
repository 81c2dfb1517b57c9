/-
Lexing on bytes.

A cursor slices its text at its offset for every character that it reads, and the lexer slices
off as many bytes as the longest match has.  Offsets come to lie between characters only, so
no run of the lexer meets a fault, whatever the text.
-/
import Mathlib.Data.List.Forall2
import QueryExpr.Proofs.Checked.Calendar
import QueryExpr.Proofs.Lexer.Stepwise

namespace QueryExpr
namespace Checked

open Text

/-- Everything that these matchers take at the front of the text. -/
def takenBy (table : SymbolTable) (text : List Char) :
    List (String × Matcher) → Checked (List Taken)
  | [] => .ok []
  | (_, matcher) :: others => do
    let found ← matcher table text
    let rest ← takenBy table text others
    .ok (found.toList ++ rest)

/-- The greatest number of bytes taken, zero when nothing is. -/
def greatest (found : List Taken) : Nat := found.foldl (fun n t => max n t.length) 0

/-- The text that the cursor has not read. -/
def unread (c : Cursor) : Checked (List Char) := textFrom c.position.offset c.text

def isEnd (c : Cursor) : Bool := byteSize c.text ≤ c.position.offset

def advance (c : Cursor) : Checked Cursor := do
  match ← unread c with
  | [] => .ok c
  | x :: rest => .ok { c with rest := rest, position := c.position.next x }

def advances : Nat → Cursor → Checked Cursor
  | 0, c => .ok c
  | count + 1, c => do
    let c ← advance c
    advances count c

/-- So many characters further.  The number has to be positive. -/
def advanceN (count : Nat) (c : Cursor) : Checked Cursor :=
  if count = 0 then .error .zeroCount else advances count c

/-- Past the characters in front that satisfy `p`, within a number of steps. -/
def skipWhile (p : Char → Bool) : Nat → Cursor → Checked Cursor
  | 0, _ => .error .unfinished
  | steps + 1, c =>
    if isEnd c then .ok c
    else do
      let rest ← unread c
      if p (rest.headD '\x00') then do
        let c ← advance c
        skipWhile p steps c
      else .ok c

/-- The place to which a cursor has moved from `start`, which has to be that many bytes
behind it. -/
def movedBy (length : Nat) (start stop : Cursor) : Checked Cursor :=
  if stop.position.offset = start.position.offset + length then .ok stop else .error .strayed

/-- The span from one cursor to another, which may not stand in front of it. -/
def spanTo (start stop : Cursor) : Checked Span :=
  if stop.position.offset < start.position.offset then .error .reversed
  else .ok (start.spanTo stop)

/-- What the text at a cursor begins with, and the place behind it. -/
def findAt (table : SymbolTable) (start : Cursor) : Checked (Finding × Cursor) := do
  let rest ← unread start
  let found ← takenBy table rest all
  if greatest found = 0 then do
    let stop ← skipWhile (fun x => !isBlank x) (start.rest.length + 1) start
    let skipped ← textBetween start.position.offset stop.position.offset start.text
    let span ← spanTo start stop
    .ok (.unrecognized ⟨String.ofList skipped, span⟩, stop)
  else do
    let taken ← textTo (greatest found) rest
    let stop ← advanceN taken.length start
    let stop ← movedBy (greatest found) start stop
    let span ← spanTo start stop
    let candidates := (found.filter fun t => t.length = greatest found).map Taken.token
    .ok (.lexeme ⟨span, candidates⟩, stop)

/-- The next lexeme within a number of steps. -/
def nextWithin : Nat → Lexer → Checked (Option Lexeme × Lexer)
  | 0, _ => .error .unfinished
  | steps + 1, l => do
    let start ← skipWhile isBlank (l.cursor.rest.length + 1) l.cursor
    if isEnd start then .ok (none, { l with cursor := start })
    else do
      match ← findAt l.table start with
      | (.lexeme x, stop) => .ok (some x, l.take x stop)
      | (.unrecognized u, stop) => nextWithin steps (l.skip u stop)

def next (l : Lexer) : Checked (Option Lexeme × Lexer) := nextWithin (l.cursor.rest.length + 1) l

/-- The answers to the next requests for a lexeme. -/
def pull : Nat → Lexer → Checked (List (Option Lexeme) × Lexer)
  | 0, l => .ok ([], l)
  | requests + 1, l => do
    let (x, l) ← next l
    let (xs, l) ← pull requests l
    .ok (x :: xs, l)

section Matchers

variable {table : SymbolTable} {text : List Char}

/-- The matcher on bytes takes what the matcher on characters takes, with no fault. -/
def Follows (matcher : Matcher) (model : QueryExpr.Matcher) : Prop :=
  ∀ table text, matcher table text = .ok ((model table text).map Match.taken)

theorem follows_all :
    List.Forall₂ (fun m m' => m.1 = m'.1 ∧ Follows m.2 m'.2) all Matcher.all :=
  .cons ⟨rfl, int_eq⟩ (.cons ⟨rfl, float_eq⟩ (.cons ⟨rfl, string_eq⟩ (.cons ⟨rfl, date_eq⟩
    (.cons ⟨rfl, datetime_eq⟩ (.cons ⟨rfl, identifier_eq⟩ (.cons ⟨rfl, keyword_eq⟩
      (.cons ⟨rfl, symbol_eq⟩ .nil)))))))

theorem takenBy_eq (table : SymbolTable) (text : List Char) :
    takenBy table text all = .ok ((Matcher.allMatches table text).map Match.taken) := by
  unfold Matcher.allMatches
  have h := follows_all
  generalize all = ms at h
  generalize Matcher.all = ms' at h
  induction h with
  | nil => rfl
  | @cons m m' ms ms' hm _ ih =>
    obtain ⟨name, matcher⟩ := m
    obtain ⟨name', model⟩ := m'
    have hmatcher : matcher table text = .ok ((model table text).map Match.taken) :=
      hm.2 table text
    rw [takenBy, hmatcher, Outcome.ok_bind, ih, Outcome.ok_bind, List.filterMap_cons]
    dsimp only
    cases model table text with
    | none => rfl
    | some m => rfl

theorem greatest_taken (ms : List Match) : greatest (ms.map Match.taken) = longest ms := by
  rw [greatest, List.foldl_map]
  rfl

/-- The length is positive and cuts the text between two of its characters. -/
structure Taken.CutsFront (text : List Char) (t : Taken) : Prop where
  positive : 0 < t.length
  length_le : t.length ≤ byteSize text
  isBoundary : isBoundary t.length text = true

theorem cutsFront_taken {m : Match} (h : m.IsFront text) : m.taken.CutsFront text := by
  obtain ⟨rest, hrest⟩ := h.isPrefix
  have hlength : m.taken.length = byteSize m.text := rfl
  refine ⟨?_, ?_, isBoundary_iff.mpr ⟨m.text, rest, hrest.symm, rfl⟩⟩
  · rw [hlength]
    exact Nat.pos_of_ne_zero (byteSize_eq_zero.not.mpr h.nonempty)
  · rw [hlength, ← hrest, byteSize_append]
    exact Nat.le_add_right _ _

theorem forall₂_cutsFront (ht : table.Obtained) (text : List Char) :
    List.Forall₂ (fun m m' => m.1 = m'.1 ∧ ∃ found, m.2 table text = .ok found ∧
      found = (m'.2 table text).map Match.taken ∧ ∀ t ∈ found, t.CutsFront text)
        all Matcher.all := by
  refine List.forall₂_iff_zip.mpr ⟨rfl, ?_⟩
  intro m m' hmem
  obtain ⟨hname, hfollows⟩ := List.forall₂_zip follows_all hmem
  refine ⟨hname, _, hfollows table text, rfl, fun t hfound => ?_⟩
  obtain ⟨found, hmatch, rfl⟩ := Option.map_eq_some_iff.mp hfound
  have hall : found ∈ Matcher.allMatches table text :=
    List.mem_filterMap.mpr ⟨m', (List.of_mem_zip hmem).2, hmatch⟩
  exact cutsFront_taken (Matcher.isFront_of_mem_allMatches ht hall)

end Matchers

section Cursors

variable {table : SymbolTable} {source read taken : List Char} {start stop c : Cursor}

theorem isRest_of_hasRead (h : c.HasRead read) : IsRest c.text c.position.offset c.rest :=
  ⟨read, h.text_eq, by rw [h.position_eq, Position.behind_offset]⟩

theorem unread_eq (h : c.HasRead read) : unread c = .ok c.rest :=
  (isRest_of_hasRead h).textFrom_eq

theorem isEnd_eq (h : c.HasRead read) : isEnd c = c.isEnd := by
  have hsize := (isRest_of_hasRead h).byteSize_eq
  rw [Bool.eq_iff_iff, isEnd, decide_eq_true_eq, Cursor.isEnd, List.isEmpty_iff,
    ← byteSize_eq_zero]
  omega

theorem advance_eq (h : c.HasRead read) : advance c = .ok c.advance := by
  rw [advance, unread_eq h, Outcome.ok_bind]
  unfold Cursor.advance
  cases c.rest with
  | nil => rfl
  | cons x rest => rfl

theorem advances_eq (count : Nat) (h : c.HasRead read) :
    advances count c = .ok (c.advanceN count) := by
  induction count generalizing c read with
  | zero => rfl
  | succ count ih =>
    have hnext : c.advance.HasRead _ := h.advanceN 1
    rw [advances, advance_eq h, Outcome.ok_bind, ih hnext]
    rfl

theorem advanceN_eq {count : Nat} (hcount : 0 < count) (h : c.HasRead read) :
    advanceN count c = .ok (c.advanceN count) := by
  rw [advanceN, if_neg (Nat.ne_of_gt hcount), advances_eq count h]

theorem skipWhile_cons {p : Char → Bool} {x : Char} {rest : List Char}
    (hrest : c.rest = x :: rest) :
    c.skipWhile p = if p x = true then c.advance.skipWhile p else c := by
  rw [Cursor.skipWhile, hrest, List.takeWhile_cons]
  split
  · rw [List.length_cons, Cursor.advanceN, Cursor.skipWhile, Cursor.advance_rest, hrest,
      List.tail_cons]
  · rfl

/-- The steps suffice, since every step reads a character. -/
theorem skipWhile_eq (p : Char → Bool) {steps : Nat} (hsteps : c.rest.length < steps)
    (h : c.HasRead read) : skipWhile p steps c = .ok (c.skipWhile p) := by
  induction steps generalizing c read with
  | zero => exact absurd hsteps (Nat.not_lt_zero _)
  | succ steps ih =>
    rw [skipWhile, isEnd_eq h, unread_eq h, Outcome.ok_bind, advance_eq h, Outcome.ok_bind]
    cases hrest : c.rest with
    | nil =>
      rw [if_pos (by rw [Cursor.isEnd, hrest]; rfl), Cursor.skipWhile, hrest]
      rfl
    | cons x rest =>
      have hnext : c.advance.HasRead _ := h.advanceN 1
      have hshort : c.advance.rest.length < steps := by
        rw [hrest] at hsteps
        rw [Cursor.advance_rest, hrest]
        exact Nat.lt_of_succ_lt_succ hsteps
      rw [if_neg (by rw [Cursor.isEnd, hrest]; exact Bool.false_ne_true), skipWhile_cons hrest,
        ih hshort hnext]
      show (if p x = true then _ else _) = _
      split
      · rfl
      · rfl

theorem spanTo_eq (h : start.HasRead read) (hstop : stop.HasRead (read ++ taken)) :
    spanTo start stop = .ok (start.spanTo stop) := by
  rw [spanTo, if_neg (Nat.not_lt.mpr (h.offset_le hstop))]

theorem movedBy_eq (h : start.HasRead read) (hstop : stop.HasRead (read ++ taken)) :
    movedBy (byteSize taken) start stop = .ok stop := by
  rw [movedBy, if_pos (h.offset_append hstop)]

theorem textBetween_eq (h : start.HasRead read) (hstop : stop.HasRead (read ++ taken))
    (htext : stop.text = start.text) :
    textBetween start.position.offset stop.position.offset start.text = .ok taken := by
  have hrest : IsRest start.text start.position.offset (taken ++ stop.rest) := by
    refine ⟨read, ?_, by rw [h.position_eq, Position.behind_offset]⟩
    rw [← htext, hstop.text_eq, List.append_assoc]
  rw [h.offset_append hstop, hrest.textBetween_append]

theorem candidates_eq (table : SymbolTable) (text : List Char) :
    (((Matcher.allMatches table text).map Match.taken).filter
        fun t => t.length = longest (Matcher.allMatches table text)).map Taken.token =
      (bestMatches table text).map Match.token := by
  rw [List.filter_map, List.map_map]
  rfl

/-- A finding is made with no fault.  The longest match is a front of the unread text, so the
slice of as many bytes is the match, and its characters are what the cursor moves over. -/
theorem findAt_eq (ht : table.Obtained) (h : start.HasRead read) :
    findAt table start = .ok (QueryExpr.findAt table start) := by
  unfold findAt QueryExpr.findAt
  rw [unread_eq h, Outcome.ok_bind, takenBy_eq, Outcome.ok_bind, greatest_taken, candidates_eq]
  cases hbest : bestMatches table start.rest with
  | nil =>
    have hstop := h.skipWhile fun x => !isBlank x
    have htext : (start.skipWhile fun x => !isBlank x).text = start.text :=
      Cursor.advanceN_text _ start
    have hnone : longest (Matcher.allMatches table start.rest) = 0 := by
      rw [bestMatches_eq_nil.mp hbest]
      rfl
    rw [if_pos hnone, skipWhile_eq _ (Nat.lt_succ_self _) h, Outcome.ok_bind,
      textBetween_eq h hstop htext, Outcome.ok_bind, spanTo_eq h hstop, Outcome.ok_bind,
      ← h.textTo hstop htext]
  | cons best others =>
    have hmem : best ∈ bestMatches table start.rest := hbest ▸ List.mem_cons_self
    have hfront := Matcher.isFront_of_mem_allMatches ht (mem_bestMatches.mp hmem).1
    obtain ⟨after, hafter⟩ := hfront.isPrefix
    have hstop := h.advanceN best.text.length
    rw [← hafter, List.take_left] at hstop
    have hlength : longest (Matcher.allMatches table start.rest) = byteSize best.text :=
      longest_of_mem_bestMatches hmem
    rw [hlength, if_neg (byteSize_eq_zero.not.mpr hfront.nonempty), textTo_of_append hafter,
      Outcome.ok_bind, advanceN_eq (List.length_pos_iff.mpr hfront.nonempty) h, Outcome.ok_bind,
      movedBy_eq h hstop, Outcome.ok_bind, spanTo_eq h hstop, Outcome.ok_bind]

/-- The next lexeme is found with no fault.  The induction is on the steps, and every step reads
something. -/
theorem nextWithin_eq {l : Lexer} {steps : Nat} (ht : l.table.Obtained)
    (h : l.cursor.HasRead read) (hsteps : l.cursor.rest.length < steps) :
    nextWithin steps l = .ok (l.nextWithin steps) := by
  induction steps generalizing l read with
  | zero => exact absurd hsteps (Nat.not_lt_zero _)
  | succ steps ih =>
    have hskip : skipWhile isBlank (l.cursor.rest.length + 1) l.cursor = .ok l.cursor.skipBlanks :=
      skipWhile_eq isBlank (Nat.lt_succ_self _) h
    have hstart : l.cursor.skipBlanks.HasRead _ := h.skipWhile isBlank
    rw [nextWithin, Lexer.nextWithin, hskip, Outcome.ok_bind, isEnd_eq hstart,
      findAt_eq ht hstart, Outcome.ok_bind]
    by_cases hend : l.cursor.skipBlanks.isEnd = true
    · have hscan : scan l.table l.cursor = none := if_pos hend
      rw [if_pos hend, hscan]
    · cases hfound : QueryExpr.findAt l.table l.cursor.skipBlanks with
      | mk f stop =>
        have hscan : scan l.table l.cursor = some (f, stop) :=
          (if_neg hend).trans (congrArg some hfound)
        obtain ⟨blanks, taken, -, hne, hrest, hstop, -⟩ := scan_isRight ht h hscan
        rw [if_neg hend, hscan]
        cases f with
        | lexeme x => rfl
        | unrecognized u =>
          have hpos : 0 < taken.length := List.length_pos_iff.mpr hne
          have hshort : stop.rest.length < steps := by
            rw [hrest, List.length_append, List.length_append] at hsteps
            omega
          exact ih (l := l.skip u stop) ht hstop hshort

end Cursors

section Runs

variable {table : SymbolTable} {source : List Char} {l : Lexer}

theorem next_eq (ht : l.table.Obtained) (h : l.cursor.StandsIn source) :
    next l = .ok l.next := by
  obtain ⟨-, read, hread⟩ := Cursor.standsIn_iff.mp h
  exact nextWithin_eq ht hread (Nat.lt_succ_self _)

/-- Every request leaves the cursor standing in the text and the table as it was, so the induction
is on the requests with the lexer generalised. -/
theorem pull_eq (ht : l.table.Obtained) (h : l.cursor.StandsIn source) (requests : Nat) :
    pull requests l = .ok (l.pull requests) := by
  induction requests generalizing l with
  | zero => rfl
  | succ requests ih =>
    obtain ⟨fs, hahead⟩ := Lexer.exists_ahead ht h
    obtain ⟨done, rest, hadvanced, -⟩ := Lexer.next_advanced ht h hahead
    rw [pull, next_eq ht h, Outcome.ok_bind]
    dsimp only
    rw [ih (hadvanced.table_eq ▸ ht) hadvanced.standsIn, Outcome.ok_bind]
    rfl

/-- A cursor moves over the lexeme: by so many characters as the longest match has, which are
not none, and by as many bytes as it has. -/
def MovesOver (table : SymbolTable) (source : List Char) (x : Lexeme) : Prop :=
  ∃ start stop found front, start.StandsIn source ∧
    takenBy table start.rest all = .ok found ∧
    textTo (greatest found) start.rest = .ok front ∧ 0 < front.length ∧
    advanceN front.length start = .ok stop ∧
    stop.position.offset = start.position.offset + greatest found ∧ x.span = start.spanTo stop

theorem movesOver_of_isLongest {read taken after : List Char} {x : Lexeme}
    (hne : taken ≠ []) (hsource : source = read ++ (taken ++ after))
    (h : x.IsLongest table read taken after) : MovesOver table source x := by
  have hstart : (⟨source, taken ++ after, Position.behind read⟩ : Cursor).HasRead read :=
    ⟨hsource, rfl⟩
  have hstop := hstart.advanceN taken.length
  rw [List.take_left] at hstop
  refine ⟨_, _, _, taken, Cursor.standsIn_iff.mpr ⟨rfl, read, hstart⟩, takenBy_eq _ _, ?_,
    List.length_pos_iff.mpr hne, advanceN_eq (List.length_pos_iff.mpr hne) hstart, ?_, ?_⟩
  · rw [greatest_taken, h.longest_eq]
    exact textTo_append taken after
  · rw [greatest_taken, h.longest_eq]
    exact hstart.offset_append hstop
  · rw [h.span_eq, hstart.spanTo hstop]

theorem movesOver_of_mem_pull (ht : l.table.Obtained) (h : l.cursor.StandsIn source)
    {requests : Nat} {x : Lexeme} (hx : some x ∈ (l.pull requests).1) :
    MovesOver l.table source x := by
  obtain ⟨htext, read, hread⟩ := Cursor.standsIn_iff.mp h
  obtain ⟨fs, hahead⟩ := Lexer.exists_ahead ht h
  obtain ⟨done, rest, -, hanswers, -⟩ := Lexer.pull_advanced ht h hahead requests
  rw [hanswers] at hx
  obtain ⟨i, -, hi⟩ := List.mem_map.mp hx
  have hfound : Finding.lexeme x ∈ fs :=
    Finding.mem_filterMap_lexeme?.mp (List.mem_of_getElem? hi)
  obtain ⟨e, hscans, hend⟩ := hahead
  obtain ⟨blanks, taken, after, hrest, hne, hright⟩ :=
    (hscans.segmented ht hread hend).exists_isRight hfound
  refine movesOver_of_isLongest hne ?_ hright
  rw [← htext, hread.text_eq, hrest, List.append_assoc]

end Runs

end Checked

/-- The span does not end in front of its start. -/
def Span.InOrder (s : Span) : Prop := s.start.offset ≤ s.stop.offset

theorem Span.IsCut.inOrder {source : List Char} {s : Span} (h : s.IsCut source) : s.InOrder := by
  obtain ⟨before, after, -, hstart, hstop⟩ := h.parts
  rw [InOrder, ← hstart, ← hstop]
  exact Nat.le_add_right _ _

def Log.Record.spans : Log.Record → List Span
  | .lexeme l => [l.span]
  | .skipped u => [u.span]
  | .reported u => [u.span]
  | .folded _ _ => []
  | .loaded _ _ _ => []

theorem Log.Record.IsCut.inOrder {source : List Char} {r : Log.Record} (h : r.IsCut source) :
    ∀ s ∈ r.spans, s.InOrder := by
  cases r with
  | lexeme l => exact List.forall_mem_singleton.mpr (Span.IsCut.inOrder h)
  | skipped u => exact List.forall_mem_singleton.mpr (Span.IsCut.inOrder h.1)
  | reported u => exact List.forall_mem_singleton.mpr (Span.IsCut.inOrder h.1)
  | folded before after => exact nofun
  | loaded keywords symbols path => exact nofun

/-- Reading bytes and slices meets no fault.  Each of the matchers takes what it takes on
characters, and it cuts a text between two characters of it.  A lexer with any sink that is asked
any number of times goes where it goes on characters.  For each lexeme it moves its cursor by the
bytes of the longest match, and no span that it gives out, reports or records ends in front of its
start. -/
theorem lexing_meets_no_fault {table : SymbolTable} (ht : table.Obtained) :
    (∀ text, List.Forall₂ (fun m m' => m.1 = m'.1 ∧ ∃ found, m.2 table text = .ok found ∧
      found = (m'.2 table text).map Match.taken ∧ ∀ t ∈ found, t.CutsFront text)
        Checked.all Matcher.all) ∧
    ∀ text sink requests, ∃ answers l,
      (Lexer.ofText table text sink).pull requests = (answers, l) ∧
      Checked.pull requests (Lexer.ofText table text sink) = .ok (answers, l) ∧
      (∀ x, some x ∈ answers → Checked.MovesOver table text.toList x ∧ x.span.InOrder) ∧
      (∀ u ∈ l.sink.reports, u ∈ sink.reports ∨ u.span.InOrder) ∧
      ∀ r ∈ l.records, ∀ s ∈ r.spans, s.InOrder := by
  refine ⟨Checked.forall₂_cutsFront ht, fun text sink requests => ?_⟩
  have hstart := Lexer.keepsPlaces_ofText table text sink
  obtain ⟨hlast, hlexemes⟩ := hstart.pull requests
  refine ⟨_, _, rfl, Checked.pull_eq ht hstart.cursor requests, fun x hx => ⟨?_, ?_⟩,
    fun u hu => ?_, fun r hr => (hlast.records r hr).inOrder⟩
  · exact Checked.movesOver_of_mem_pull ht hstart.cursor hx
  · exact (hlexemes x hx).inOrder
  · exact (hlast.reports u hu).imp_right fun hcut => hcut.1.inOrder

/-- A quoted text ends where its closing quote does, with letters of two bytes on both sides of
it, and a sign of three bytes is skipped whole. -/
theorem lexing_meets_no_fault_wide :
    SymbolTable.default.Obtained ∧
      (Checked.string SymbolTable.default "'ß''é'Ω".toList =
          .ok (some ⟨8, .str "ß'é"⟩) ∧
        Checked.Taken.CutsFront "'ß''é'Ω".toList ⟨8, .str "ß'é"⟩) ∧
      ((Checked.pull 3 (Lexer.ofText SymbolTable.default "1 €\n'é'<" .log)).map Prod.fst =
          .ok [some ⟨⟨⟨0, 1, 1⟩, ⟨1, 1, 2⟩⟩, [.int 1]⟩,
            some ⟨⟨⟨6, 2, 1⟩, ⟨10, 2, 4⟩⟩, [.str "é"]⟩,
            some ⟨⟨⟨10, 2, 4⟩, ⟨11, 2, 5⟩⟩, [.symbol "<"]⟩] ∧
        Checked.MovesOver SymbolTable.default "1 €\n'é'<".toList
          ⟨⟨⟨6, 2, 1⟩, ⟨10, 2, 4⟩⟩, [.str "é"]⟩) := by
  obtain ⟨hmatchers, hruns⟩ := lexing_meets_no_fault .default
  have hstring := List.forall₂_zip (hmatchers "'ß''é'Ω".toList)
    (show (("string", Checked.string), ("string", Matcher.string)) ∈
      Checked.all.zip Matcher.all from .tail _ (.tail _ (.head _)))
  obtain ⟨-, found, htaken, hfound, hcuts⟩ := hstring
  have hvalue : found = some ⟨8, .str "ß'é"⟩ := hfound.trans (by decide +kernel)
  obtain ⟨answers, l, hpull, hchecked, hlexemes, -⟩ := hruns "1 €\n'é'<" .log 3
  have hanswers : answers = [some ⟨⟨⟨0, 1, 1⟩, ⟨1, 1, 2⟩⟩, [.int 1]⟩,
      some ⟨⟨⟨6, 2, 1⟩, ⟨10, 2, 4⟩⟩, [.str "é"]⟩,
      some ⟨⟨⟨10, 2, 4⟩, ⟨11, 2, 5⟩⟩, [.symbol "<"]⟩] :=
    (congrArg Prod.fst hpull).symm.trans (by decide +kernel)
  subst hvalue hanswers
  exact ⟨.default, ⟨htaken, hcuts _ rfl⟩, by rw [hchecked]; rfl,
    (hlexemes _ (.tail _ (.head _))).1⟩

end QueryExpr
