/-
Runs of the lexer.

A run is a number of scans, each going on where the one before it ended.  Taking the
next lexeme is a run through unrecognized texts up to a lexeme, and draining a lexer is
a run to the end of the text.  The steps that the two are given always suffice, since
every scan shortens what is left.
-/
import QueryExpr.Proofs.Lexer.Findings

namespace QueryExpr

namespace Finding

def lexeme? : Finding → Option Lexeme
  | lexeme l => some l
  | unrecognized _ => none

def unrecognized? : Finding → Option Unrecognized
  | lexeme _ => none
  | unrecognized u => some u

theorem span_of_lexeme? {f : Finding} {l : Lexeme} (h : f.lexeme? = some l) :
    f.span = l.span := by
  cases f with
  | lexeme l' => exact congrArg Lexeme.span (Option.some.inj h)
  | unrecognized u => cases h

theorem span_of_unrecognized? {f : Finding} {u : Unrecognized} (h : f.unrecognized? = some u) :
    f.span = u.span := by
  cases f with
  | lexeme l => cases h
  | unrecognized u' => exact congrArg Unrecognized.span (Option.some.inj h)

@[simp] theorem mem_filterMap_lexeme? {fs : List Finding} {l : Lexeme} :
    l ∈ fs.filterMap lexeme? ↔ lexeme l ∈ fs := by
  rw [List.mem_filterMap]
  constructor
  · rintro ⟨f, hf, hl⟩
    cases f with
    | lexeme l' => exact Option.some.inj hl ▸ hf
    | unrecognized u => cases hl
  · intro h
    exact ⟨lexeme l, h, rfl⟩

@[simp] theorem mem_filterMap_unrecognized? {fs : List Finding} {u : Unrecognized} :
    u ∈ fs.filterMap unrecognized? ↔ unrecognized u ∈ fs := by
  rw [List.mem_filterMap]
  constructor
  · rintro ⟨f, hf, hu⟩
    cases f with
    | lexeme l => cases hu
    | unrecognized u' => exact Option.some.inj hu ▸ hf
  · intro h
    exact ⟨unrecognized u, h, rfl⟩

@[simp] theorem filterMap_lexeme?_unrecognized (us : List Unrecognized) :
    (us.map unrecognized).filterMap lexeme? = [] := by
  rw [List.filterMap_map]
  exact List.filterMap_eq_nil_iff.mpr fun u _ => rfl

@[simp] theorem filterMap_lexeme?_lexeme (ls : List Lexeme) :
    (ls.map lexeme).filterMap lexeme? = ls := by
  rw [List.filterMap_map]
  exact List.filterMap_some

@[simp] theorem filterMap_unrecognized?_lexeme (ls : List Lexeme) :
    (ls.map lexeme).filterMap unrecognized? = [] := by
  rw [List.filterMap_map]
  exact List.filterMap_eq_nil_iff.mpr fun l _ => rfl

end Finding

/-- The scans from one cursor to another and what they find. -/
inductive Scans (table : SymbolTable) : Cursor → List Finding → Cursor → Prop where
  | refl (c : Cursor) : Scans table c [] c
  | step {c d e : Cursor} {f : Finding} {fs : List Finding}
      (head : scan table c = some (f, d)) (tail : Scans table d fs e) : Scans table c (f :: fs) e

namespace Scans

variable {table : SymbolTable} {c d e : Cursor} {fs gs : List Finding}

theorem trans (h : Scans table c fs d) (k : Scans table d gs e) : Scans table c (fs ++ gs) e := by
  induction h with
  | refl c => exact k
  | step head tail ih => exact .step head (ih k)

/-- Each scan reads at least one character. -/
theorem length_le (ht : table.Obtained) {read : List Char} (hc : c.HasRead read)
    (h : Scans table c fs d) :
    fs.length + d.rest.length ≤ c.rest.length ∧ ∃ read', d.HasRead read' := by
  induction h generalizing read with
  | refl c => exact ⟨by simp, read, hc⟩
  | step head tail ih =>
    obtain ⟨blanks, taken, -, hne, hrest, hd, -⟩ := scan_isRight ht hc head
    obtain ⟨hlen, hread⟩ := ih hd
    have hpos : 0 < taken.length := List.length_pos_iff.mpr hne
    refine ⟨?_, hread⟩
    rw [hrest, List.length_append, List.length_append, List.length_cons]
    omega

end Scans

namespace Lexer

/-- The lexer `l` becomes `m` by scans with these findings, reporting each unrecognized text
among them in turn. -/
structure Becomes (l : Lexer) (fs : List Finding) (m : Lexer) : Prop where
  scans : Scans l.table l.cursor fs m.cursor
  table_eq : m.table = l.table
  sink_eq : m.sink = (fs.filterMap Finding.unrecognized?).foldl Sink.report l.sink

/-- The lexer at the end of its text, once nothing but blanks is left. -/
def finish (l : Lexer) : Lexer := { l with cursor := l.cursor.skipBlanks }

namespace Becomes

variable {l m n : Lexer} {fs gs : List Finding}

theorem refl (l : Lexer) : l.Becomes [] l := ⟨.refl l.cursor, rfl, rfl⟩

theorem trans (h : l.Becomes fs m) (k : m.Becomes gs n) : l.Becomes (fs ++ gs) n := by
  have hscans : Scans l.table m.cursor gs n.cursor := h.table_eq ▸ k.scans
  refine ⟨h.scans.trans hscans, k.table_eq.trans h.table_eq, ?_⟩
  rw [k.sink_eq, h.sink_eq, List.filterMap_append, List.foldl_append]

theorem skip {u : Unrecognized} {stop : Cursor}
    (h : scan l.table l.cursor = some (.unrecognized u, stop)) :
    l.Becomes [.unrecognized u] (l.skip u stop) :=
  ⟨.step h (.refl stop), rfl, rfl⟩

theorem take {x : Lexeme} {stop : Cursor} (h : scan l.table l.cursor = some (.lexeme x, stop)) :
    l.Becomes [.lexeme x] (l.take x stop) :=
  ⟨.step h (.refl stop), rfl, rfl⟩

end Becomes

variable {l : Lexer} {read : List Char}

/-- The next lexeme is found behind unrecognized texts, or there are only such texts left. -/
theorem nextWithin_becomes {steps : Nat} (ht : l.table.Obtained) (hc : l.cursor.HasRead read)
    (hsteps : l.cursor.rest.length < steps) :
    (∃ (us : List Unrecognized) (x : Lexeme) (m : Lexer),
      nextWithin steps l = (some x, m) ∧ l.Becomes (us.map .unrecognized ++ [.lexeme x]) m) ∨
    (∃ (us : List Unrecognized) (m : Lexer),
      nextWithin steps l = (none, m.finish) ∧ l.Becomes (us.map .unrecognized) m ∧
        scan m.table m.cursor = none) := by
  induction steps generalizing l read with
  | zero => exact absurd hsteps (Nat.not_lt_zero _)
  | succ steps ih =>
    rw [nextWithin]
    cases hscan : scan l.table l.cursor with
    | none => exact Or.inr ⟨[], l, rfl, .refl l, hscan⟩
    | some found =>
      obtain ⟨f, stop⟩ := found
      cases f with
      | lexeme x => exact Or.inl ⟨[], x, l.take x stop, rfl, .take hscan⟩
      | unrecognized u =>
        obtain ⟨blanks, taken, -, hne, hrest, hstop, -⟩ := scan_isRight ht hc hscan
        have hpos : 0 < taken.length := List.length_pos_iff.mpr hne
        have hshort : stop.rest.length < steps := by
          rw [hrest, List.length_append, List.length_append] at hsteps
          omega
        rcases ih (l := l.skip u stop) ht hstop hshort with
          ⟨us, x, m, hnext, hm⟩ | ⟨us, m, hnext, hm, hend⟩
        · exact Or.inl ⟨u :: us, x, m, hnext, (Becomes.skip hscan).trans hm⟩
        · exact Or.inr ⟨u :: us, m, hnext, (Becomes.skip hscan).trans hm, hend⟩

/-- Draining goes on to the end of the text and gives the lexemes on the way. -/
theorem drainWithin_becomes {steps : Nat} (ht : l.table.Obtained) (hc : l.cursor.HasRead read)
    (hsteps : l.cursor.rest.length < steps) :
    ∃ fs m, drainWithin steps l = (fs.filterMap Finding.lexeme?, m.finish) ∧ l.Becomes fs m ∧
      scan m.table m.cursor = none := by
  induction steps generalizing l read with
  | zero => exact absurd hsteps (Nat.not_lt_zero _)
  | succ steps ih =>
    rw [drainWithin, next]
    rcases nextWithin_becomes ht hc (Nat.lt_succ_self _) with
      ⟨us, x, m, hnext, hm⟩ | ⟨us, m, hnext, hm, hend⟩
    · have htm : m.table.Obtained := hm.table_eq ▸ ht
      obtain ⟨hlen, read', hread'⟩ := hm.scans.length_le ht hc
      have hshort : m.cursor.rest.length < steps := by
        rw [List.length_append, List.length_singleton] at hlen
        omega
      obtain ⟨fs, n, hdrain, hn, hend⟩ := ih htm hread' hshort
      refine ⟨us.map .unrecognized ++ [.lexeme x] ++ fs, n, ?_, hm.trans hn, hend⟩
      rw [hnext]
      dsimp only
      rw [hdrain]
      simp [Finding.lexeme?]
    · refine ⟨us.map .unrecognized, m, ?_, hm, hend⟩
      rw [hnext, Finding.filterMap_lexeme?_unrecognized]

end Lexer

theorem foldl_report_collect (us reports : List Unrecognized) :
    us.foldl Sink.report (.collect reports) = .collect (reports ++ us) := by
  induction us generalizing reports with
  | nil => rw [List.append_nil]; rfl
  | cons u us ih =>
    rw [List.foldl_cons, Sink.report, ih, List.append_assoc, List.singleton_append]

theorem tokenize_scans {table : SymbolTable} (ht : table.Obtained) (text : String) :
    ∃ fs c, Scans table (Cursor.ofText text.toList) fs c ∧ scan table c = none ∧
      tokenize table text =
        (fs.filterMap Finding.lexeme?, fs.filterMap Finding.unrecognized?) := by
  obtain ⟨fs, m, hdrain, hm, hend⟩ := Lexer.drainWithin_becomes
    (l := Lexer.ofText table text (.collect [])) ht (Cursor.hasRead_ofText text.toList)
    (Nat.lt_succ_self _)
  have htable : m.table = table := hm.table_eq
  refine ⟨fs, m.cursor, hm.scans, htable ▸ hend, ?_⟩
  have hsink : m.finish.sink = .collect (fs.filterMap Finding.unrecognized?) := by
    show m.sink = _
    rw [hm.sink_eq]
    exact foldl_report_collect _ []
  rw [tokenize, Lexer.drain, hdrain]
  dsimp only
  rw [hsink]
  rfl

end QueryExpr
