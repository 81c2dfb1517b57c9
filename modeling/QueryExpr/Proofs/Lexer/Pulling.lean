/-
Lexers that are asked for one lexeme after the other.

What a lexer gives out, reports and records are cuts of its text, made between places at
which its cursor stood.  One scan keeps this, and so does every number of requests, with
any table and any sink.
-/
import QueryExpr.Lexer
import QueryExpr.Proofs.Lexer.Places

namespace QueryExpr

/-- The span of the text is a cut of the source, and it cuts out this very text. -/
def Unrecognized.IsCut (source : List Char) (u : Unrecognized) : Prop :=
  u.span.IsCut source ∧ u.text = String.ofList (u.span.text source)

def Finding.IsCut (source : List Char) : Finding → Prop
  | .lexeme l => l.span.IsCut source
  | .unrecognized u => u.IsCut source

/-- The spans of the record, if it has any, are cuts of the source. -/
def Log.Record.IsCut (source : List Char) : Log.Record → Prop
  | .lexeme l => l.span.IsCut source
  | .skipped u => u.IsCut source
  | .reported u => u.IsCut source
  | .folded _ _ => True
  | .loaded _ _ _ => True

section Scan

variable {table : SymbolTable} {source : List Char} {start c stop : Cursor} {f : Finding}

theorem findAt_isCut (hstart : start.StandsIn source) (h : findAt table start = (f, stop)) :
    stop.StandsIn source ∧ f.IsCut source := by
  unfold findAt at h
  split at h
  · obtain ⟨rfl, rfl⟩ := Prod.mk.inj h
    refine ⟨hstart.skipWhile _, hstart.isCut_advanceN _, ?_⟩
    rw [Cursor.textTo, hstart.text_eq]
    rfl
  · obtain ⟨rfl, rfl⟩ := Prod.mk.inj h
    exact ⟨hstart.advanceN _, hstart.isCut_advanceN _⟩

theorem scan_isCut (hc : c.StandsIn source) (h : scan table c = some (f, stop)) :
    stop.StandsIn source ∧ f.IsCut source := by
  unfold scan at h
  dsimp only at h
  split at h
  · cases h
  · exact findAt_isCut (hc.skipWhile Text.isBlank) (Option.some.inj h)

end Scan

namespace Lexer

/-- The answers to the next requests for a lexeme, none for each request behind the last
lexeme, and the lexer after them. -/
def pull : Nat → Lexer → List (Option Lexeme) × Lexer
  | 0, l => ([], l)
  | requests + 1, l =>
    let (x, l) := l.next
    let (xs, l) := pull requests l
    (x :: xs, l)

/-- The lexer stands in its source, and what it has reported and recorded are cuts of it.
Reports that its sink held before are no concern of it. -/
structure KeepsPlaces (source : List Char) (before : List Unrecognized) (l : Lexer) : Prop where
  cursor : l.cursor.StandsIn source
  reports : ∀ u ∈ l.sink.reports, u ∈ before ∨ u.IsCut source
  records : ∀ r ∈ l.records, r.IsCut source

theorem keepsPlaces_ofText (table : SymbolTable) (text : String) (sink : Sink) :
    (ofText table text sink).KeepsPlaces text.toList sink.reports :=
  ⟨Cursor.standsIn_ofText text.toList, fun _ hu => Or.inl hu, fun _ hr => nomatch hr⟩

namespace KeepsPlaces

variable {source : List Char} {before : List Unrecognized} {l : Lexer} {stop : Cursor}

theorem skip {u : Unrecognized} (h : l.KeepsPlaces source before) (hstop : stop.StandsIn source)
    (hu : u.IsCut source) : (l.skip u stop).KeepsPlaces source before := by
  refine ⟨hstop, ?_, List.forall_mem_append.mpr ⟨h.records, ?_⟩⟩
  · show ∀ u' ∈ (l.sink.report u).reports, u' ∈ before ∨ u'.IsCut source
    have hreports := h.reports
    cases hsink : l.sink with
    | collect reports =>
      rw [hsink] at hreports
      refine List.forall_mem_append.mpr ⟨hreports, ?_⟩
      exact List.forall_mem_singleton.mpr (Or.inr hu)
    | log => exact fun _ hu' => nomatch hu'
    | ignore => exact fun _ hu' => nomatch hu'
  · cases l.sink with
    | collect reports => exact List.forall_mem_singleton.mpr hu
    | log => exact List.forall_mem_cons.mpr ⟨hu, List.forall_mem_singleton.mpr hu⟩
    | ignore => exact List.forall_mem_singleton.mpr hu

theorem take {x : Lexeme} (h : l.KeepsPlaces source before) (hstop : stop.StandsIn source)
    (hx : x.span.IsCut source) : (l.take x stop).KeepsPlaces source before :=
  ⟨hstop, h.reports, List.forall_mem_append.mpr ⟨h.records, List.forall_mem_singleton.mpr hx⟩⟩

theorem nextWithin (steps : Nat) (h : l.KeepsPlaces source before) :
    (nextWithin steps l).2.KeepsPlaces source before ∧
      ∀ x ∈ (nextWithin steps l).1, x.span.IsCut source := by
  induction steps generalizing l with
  | zero => exact ⟨h, nofun⟩
  | succ steps ih =>
    rw [Lexer.nextWithin]
    cases hscan : scan l.table l.cursor with
    | none => exact ⟨⟨h.cursor.skipWhile _, h.reports, h.records⟩, nofun⟩
    | some found =>
      obtain ⟨f, stop⟩ := found
      obtain ⟨hstop, hf⟩ := scan_isCut h.cursor hscan
      cases f with
      | lexeme x =>
        refine ⟨h.take hstop hf, fun x' hx' => ?_⟩
        cases hx'
        exact hf
      | unrecognized u => exact ih (h.skip hstop hf)

theorem next (h : l.KeepsPlaces source before) :
    l.next.2.KeepsPlaces source before ∧ ∀ x ∈ l.next.1, x.span.IsCut source :=
  h.nextWithin (l.cursor.rest.length + 1)

theorem pull (requests : Nat) (h : l.KeepsPlaces source before) :
    (pull requests l).2.KeepsPlaces source before ∧
      ∀ x, some x ∈ (pull requests l).1 → x.span.IsCut source := by
  induction requests generalizing l with
  | zero => exact ⟨h, nofun⟩
  | succ requests ih =>
    obtain ⟨hnext, hfirst⟩ := h.next
    obtain ⟨hlast, hothers⟩ := ih hnext
    refine ⟨hlast, fun x hx => ?_⟩
    rcases List.mem_cons.mp hx with hx | hx
    · exact hfirst x hx.symm
    · exact hothers x hx

theorem drainWithin (steps : Nat) (h : l.KeepsPlaces source before) :
    (drainWithin steps l).2.KeepsPlaces source before ∧
      ∀ x ∈ (drainWithin steps l).1, x.span.IsCut source := by
  induction steps generalizing l with
  | zero => exact ⟨h, nofun⟩
  | succ steps ih =>
    obtain ⟨hnext, hfirst⟩ := h.next
    rw [Lexer.drainWithin]
    cases hpulled : l.next with
    | mk found m =>
      rw [hpulled] at hnext hfirst
      cases found with
      | none => exact ⟨hnext, nofun⟩
      | some x =>
        obtain ⟨hlast, hothers⟩ := ih hnext
        exact ⟨hlast, List.forall_mem_cons.mpr ⟨hfirst x rfl, hothers⟩⟩

end KeepsPlaces
end Lexer

theorem tokenize_isCut (table : SymbolTable) (text : String) :
    (∀ l ∈ (tokenize table text).1, l.span.IsCut text.toList) ∧
      ∀ u ∈ (tokenize table text).2, u.IsCut text.toList := by
  have hstart := Lexer.keepsPlaces_ofText table text (.collect [])
  obtain ⟨hlast, hlexemes⟩ := hstart.drainWithin ((Cursor.ofText text.toList).rest.length + 1)
  refine ⟨hlexemes, fun u hu => ?_⟩
  exact (hlast.reports u hu).resolve_left List.not_mem_nil

/-- Positions are kept right.  The cursors that moves lead to are those that stand at a place
of their text, and such cursors are the same when their offsets are.  Every span that a lexer
gives out, reports or records, asked any number of times with any table and sink, is cut out
between two of these cursors. -/
theorem every_position_isPlace (text : String) :
    (∀ c : Cursor, (∃ moves, c ∈ ((Reader.ofText text.toList).run moves).cursors) ↔
      c.StandsIn text.toList) ∧
    (∀ moves moves', ∀ c ∈ ((Reader.ofText text.toList).run moves).cursors,
      ∀ d ∈ ((Reader.ofText text.toList).run moves').cursors,
        c.position.offset = d.position.offset → c = d) ∧
    (∀ table sink requests,
      ((Lexer.ofText table text sink).pull requests).2.KeepsPlaces text.toList sink.reports ∧
      ∀ x, some x ∈ ((Lexer.ofText table text sink).pull requests).1 →
        x.span.IsCut text.toList) ∧
    ∀ table, (∀ l ∈ (tokenize table text).1, l.span.IsCut text.toList) ∧
      ∀ u ∈ (tokenize table text).2, u.IsCut text.toList := by
  refine ⟨fun c => Reader.mem_cursors_run_iff, ?_, ?_, fun table => tokenize_isCut table text⟩
  · intro moves moves' c hc d hd hoffset
    have hcplace := Reader.mem_cursors_run_iff.mp ⟨moves, hc⟩
    have hdplace := Reader.mem_cursors_run_iff.mp ⟨moves', hd⟩
    exact hcplace.unique hdplace hoffset
  · intro table sink requests
    exact (Lexer.keepsPlaces_ofText table text sink).pull requests

/-- Going back in front of a newline and skipping it again ends where the next word is found. -/
theorem every_position_isPlace_restored :
    (⟨"é\n  x $".toList, "x $".toList, ⟨5, 2, 3⟩⟩ : Cursor).StandsIn "é\n  x $".toList ∧
      (⟨⟨5, 2, 3⟩, ⟨6, 2, 4⟩⟩ : Span).IsCut "é\n  x $".toList ∧
        (⟨"$", ⟨⟨7, 2, 5⟩, ⟨8, 2, 6⟩⟩⟩ : Unrecognized).IsCut "é\n  x $".toList := by
  obtain ⟨hmoves, -, -, htokens⟩ := every_position_isPlace "é\n  x $"
  obtain ⟨hlexemes, hreports⟩ := htokens SymbolTable.default
  refine ⟨(hmoves _).mp ⟨[.advance, .snapshot, .advanceN 2 (by decide), .restore 0, .skipBlanks],
    List.mem_cons.mpr (Or.inl (by decide))⟩, ?_, hreports _ (by decide +kernel)⟩
  have hfound : ⟨⟨⟨5, 2, 3⟩, ⟨6, 2, 4⟩⟩, [.identifier "x"]⟩ ∈
      (tokenize SymbolTable.default "é\n  x $").1 := by
    decide +kernel
  exact hlexemes _ hfound

end QueryExpr
