/-
Tokenizing cuts a text by maximal munch and loses nothing of it.

A run of scans cuts the unread text into segments, each some blanks and a finding, with
only blanks behind the last one.  What the lexemes and the reports of a text say
together is read off these segments: merged by their places, their spans follow one
another, each covers something, and what none of them covers is blank.
-/
import QueryExpr.Proofs.Lexer.Scanning

namespace QueryExpr

/-- The text `rest`, which stands behind `before`, consists of the segments of these findings
and of blanks. -/
inductive Segmented (table : SymbolTable) : List Char → List Char → List Finding → Prop where
  | blank {before rest : List Char} (hblank : ∀ x ∈ rest, Text.isBlank x = true) :
      Segmented table before rest []
  | found {before blanks taken after : List Char} {f : Finding} {fs : List Finding}
      (hblanks : ∀ x ∈ blanks, Text.isBlank x = true) (hne : taken ≠ [])
      (hf : f.IsRight table (before ++ blanks) taken after)
      (tail : Segmented table (before ++ blanks ++ taken) after fs) :
      Segmented table before (blanks ++ (taken ++ after)) (f :: fs)

/-- A run to the end of the text cuts into segments what it reads. -/
theorem Scans.segmented {table : SymbolTable} {c d : Cursor} {read : List Char} {fs : List Finding}
    (ht : table.Obtained) (hc : c.HasRead read) (h : Scans table c fs d)
    (hend : scan table d = none) : Segmented table read c.rest fs := by
  induction h generalizing read with
  | refl c => exact .blank (scan_eq_none.mp hend)
  | step head tail ih =>
    obtain ⟨blanks, taken, hblanks, hne, hrest, hd, hf⟩ := scan_isRight ht hc head
    rw [hrest]
    exact .found hblanks hne hf (ih hd hend)

theorem tokenize_segmented {table : SymbolTable} (ht : table.Obtained) (text : String) :
    ∃ fs, Segmented table [] text.toList fs ∧
      tokenize table text =
        (fs.filterMap Finding.lexeme?, fs.filterMap Finding.unrecognized?) := by
  obtain ⟨fs, c, hscans, hend, heq⟩ := tokenize_scans ht text
  exact ⟨fs, hscans.segmented ht (Cursor.hasRead_ofText text.toList) hend, heq⟩

namespace Span

/-- The span ends where the other one starts, or before that. -/
def IsBefore (s t : Span) : Prop := s.stop.offset ≤ t.start.offset

/-- The character at the offset lies in the span. -/
def Covers (s : Span) (offset : Nat) : Prop := s.start.offset ≤ offset ∧ offset < s.stop.offset

end Span

/-- A character behind a front of the text lies in the front or in the rest of the text. -/
theorem append_eq_append_cons {front rest read behind : List Char} {x : Char}
    (h : front ++ rest = read ++ x :: behind) :
    (∃ others, front = read ++ x :: others) ∨
      ∃ read', read = front ++ read' ∧ rest = read' ++ x :: behind := by
  rcases List.append_eq_append_iff.mp h with ⟨read', hread, hrest⟩ | ⟨others, hfront, hx⟩
  · exact Or.inr ⟨read', hread, hrest⟩
  · rcases List.cons_eq_append_iff.mp hx with ⟨rfl, hrest⟩ | ⟨others', rfl, -⟩
    · exact Or.inr ⟨[], by rw [hfront, List.append_nil, List.append_nil], hrest⟩
    · exact Or.inl ⟨others', hfront⟩

namespace Segmented

variable {table : SymbolTable} {before rest : List Char} {fs : List Finding}

theorem exists_isRight (h : Segmented table before rest fs) {f : Finding} (hf : f ∈ fs) :
    ∃ read taken after, rest = read ++ (taken ++ after) ∧ taken ≠ [] ∧
      f.IsRight table (before ++ read) taken after := by
  induction h with
  | blank => exact absurd hf List.not_mem_nil
  | @found before blanks taken after g gs hblanks hne hg tail ih =>
    rcases List.mem_cons.mp hf with rfl | hf
    · exact ⟨blanks, taken, after, rfl, hne, hg⟩
    · obtain ⟨read, taken', after', rfl, hne', hright⟩ := ih hf
      refine ⟨blanks ++ taken ++ read, taken', after', ?_, hne', ?_⟩
      · simp only [List.append_assoc]
      · simpa only [List.append_assoc] using hright

theorem start_lt_stop (h : Segmented table before rest fs) {f : Finding} (hf : f ∈ fs) :
    Text.byteSize before ≤ f.span.start.offset ∧ f.span.start.offset < f.span.stop.offset := by
  obtain ⟨read, taken, after, -, hne, hright⟩ := h.exists_isRight hf
  have hpos : 0 < taken.length := List.length_pos_iff.mpr hne
  have hbytes := Text.length_le_byteSize taken
  rw [hright.span_eq, Span.behind_start_offset, Span.behind_stop_offset, Text.byteSize_append]
  omega

theorem pairwise_isBefore (h : Segmented table before rest fs) :
    fs.Pairwise fun f g => f.span.IsBefore g.span := by
  induction h with
  | blank => exact List.Pairwise.nil
  | @found before blanks taken after f fs hblanks hne hf tail ih =>
    refine List.pairwise_cons.mpr ⟨fun g hg => ?_, ih⟩
    have hstart := (tail.start_lt_stop hg).1
    rw [Text.byteSize_append] at hstart
    show f.span.stop.offset ≤ _
    rw [hf.span_eq, Span.behind_stop_offset]
    exact hstart

theorem pairwise_filterMap {α : Type} {part : Finding → Option α} {span : α → Span}
    (hspan : ∀ {f a}, part f = some a → f.span = span a) (h : Segmented table before rest fs) :
    (fs.filterMap part).Pairwise fun a b => (span a).IsBefore (span b) := by
  refine h.pairwise_isBefore.filterMap part fun f g hfg a ha b hb => ?_
  rw [← hspan ha, ← hspan hb]
  exact hfg

/-- A character that no finding covers is blank. -/
theorem isBlank_of_uncovered (h : Segmented table before rest fs) {read behind : List Char}
    {x : Char} (hrest : rest = read ++ x :: behind)
    (hfree : ∀ f ∈ fs, ¬ f.span.Covers (Text.byteSize (before ++ read))) :
    Text.isBlank x = true := by
  induction h generalizing read with
  | blank hblank =>
    apply hblank
    rw [hrest]
    exact List.mem_append_right read List.mem_cons_self
  | @found before blanks taken after f fs hblanks hne hf tail ih =>
    rcases append_eq_append_cons hrest with ⟨gap, rfl⟩ | ⟨gap, rfl, hgap⟩
    · exact hblanks x (List.mem_append_right read List.mem_cons_self)
    · rcases append_eq_append_cons hgap with ⟨others, rfl⟩ | ⟨read', rfl, hafter⟩
      · -- the character is one of those taken, so the first finding covers it
        have hspan := hfree f List.mem_cons_self
        have hpos := x.utf8Size_pos
        rw [Span.Covers, hf.span_eq, Span.behind_start_offset, Span.behind_stop_offset] at hspan
        simp only [Text.byteSize_append, Text.byteSize_cons] at hspan
        omega
      · refine ih hafter fun g hg => ?_
        have hg := hfree g (List.mem_cons_of_mem f hg)
        simpa only [List.append_assoc] using hg

end Segmented

/-- The spans of lexemes and of unrecognized texts in the order of the source. -/
def mergedSpans (lexemes : List Lexeme) (reports : List Unrecognized) : List Span :=
  (lexemes.map Lexeme.span).merge (reports.map Unrecognized.span)
    fun a b => decide (a.start.offset ≤ b.start.offset)

section Merged

variable {s : Span} {ss ts : List Span}

theorem merge_cons_left (h : ∀ t ∈ ts, s.start.offset ≤ t.start.offset) :
    (s :: ss).merge ts (fun a b => decide (a.start.offset ≤ b.start.offset)) =
      s :: ss.merge ts fun a b => decide (a.start.offset ≤ b.start.offset) := by
  cases ts with
  | nil => rw [List.merge_right, List.merge_right]
  | cons t ts =>
    exact List.cons_merge_cons_pos _ ss ts (decide_eq_true (h t List.mem_cons_self))

theorem merge_cons_right (h : ∀ t ∈ ss, s.start.offset < t.start.offset) :
    ss.merge (s :: ts) (fun a b => decide (a.start.offset ≤ b.start.offset)) =
      s :: ss.merge ts fun a b => decide (a.start.offset ≤ b.start.offset) := by
  cases ss with
  | nil => rw [List.nil_merge, List.nil_merge]
  | cons t ss =>
    have hlt := h t List.mem_cons_self
    exact List.cons_merge_cons_neg _ ss ts (by simpa using hlt)

end Merged

/-- Findings in the order of their starts are merged again from what they find. -/
theorem mergedSpans_filterMap {fs : List Finding}
    (h : fs.Pairwise fun f g => f.span.start.offset < g.span.start.offset) :
    mergedSpans (fs.filterMap Finding.lexeme?) (fs.filterMap Finding.unrecognized?) =
      fs.map Finding.span := by
  induction fs with
  | nil => exact List.nil_merge []
  | cons f fs ih =>
    obtain ⟨hf, hfs⟩ := List.pairwise_cons.mp h
    have hrest := ih hfs
    cases f with
    | lexeme l =>
      have hfirst : ∀ t ∈ (fs.filterMap Finding.unrecognized?).map Unrecognized.span,
          l.span.start.offset ≤ t.start.offset := by
        intro t ht
        obtain ⟨u, hu, rfl⟩ := List.mem_map.mp ht
        exact Nat.le_of_lt (hf _ (Finding.mem_filterMap_unrecognized?.mp hu))
      exact (merge_cons_left hfirst).trans (congrArg (l.span :: ·) hrest)
    | unrecognized u =>
      have hfirst : ∀ t ∈ (fs.filterMap Finding.lexeme?).map Lexeme.span,
          u.span.start.offset < t.start.offset := by
        intro t ht
        obtain ⟨l, hl, rfl⟩ := List.mem_map.mp ht
        exact hf _ (Finding.mem_filterMap_lexeme?.mp hl)
      exact (merge_cons_right hfirst).trans (congrArg (u.span :: ·) hrest)

/-- The lexemes and the reports cut the source by maximal munch, and only blanks of it are in
neither. -/
structure MaximalMunch (table : SymbolTable) (source : List Char) (lexemes : List Lexeme)
    (reports : List Unrecognized) : Prop where
  lexemes_ordered : lexemes.Pairwise fun a b => a.span.IsBefore b.span
  reports_ordered : reports.Pairwise fun a b => a.span.IsBefore b.span
  spans_ordered : (mergedSpans lexemes reports).Pairwise Span.IsBefore
  spans_nonempty : ∀ s ∈ mergedSpans lexemes reports, s.start.offset < s.stop.offset
  blank_between : ∀ before x after, source = before ++ x :: after →
    (∀ s ∈ mergedSpans lexemes reports, ¬ s.Covers (Text.byteSize before)) →
      Text.isBlank x = true
  longest : ∀ l ∈ lexemes, l.candidates ≠ [] ∧
    ∃ before taken after, source = before ++ (taken ++ after) ∧
      l.IsLongest table before taken after
  unmatched : ∀ u ∈ reports, u.text = String.ofList (u.span.text source) ∧
    ∃ before taken after, source = before ++ (taken ++ after) ∧
      u.IsUnmatched table before taken after

theorem Segmented.maximalMunch {table : SymbolTable} {source : List Char} {fs : List Finding}
    (h : Segmented table [] source fs) :
    MaximalMunch table source (fs.filterMap Finding.lexeme?)
      (fs.filterMap Finding.unrecognized?) := by
  have hbefore := h.pairwise_isBefore
  have hmerged : mergedSpans (fs.filterMap Finding.lexeme?) (fs.filterMap Finding.unrecognized?) =
      fs.map Finding.span := by
    apply mergedSpans_filterMap
    refine hbefore.imp_of_mem fun hf _ hfg => ?_
    exact Nat.lt_of_lt_of_le (h.start_lt_stop hf).2 hfg
  constructor
  case lexemes_ordered => exact h.pairwise_filterMap Finding.span_of_lexeme?
  case reports_ordered => exact h.pairwise_filterMap Finding.span_of_unrecognized?
  case spans_ordered =>
    rw [hmerged]
    exact List.pairwise_map.mpr hbefore
  case spans_nonempty =>
    rw [hmerged]
    intro s hs
    obtain ⟨f, hf, rfl⟩ := List.mem_map.mp hs
    exact (h.start_lt_stop hf).2
  case blank_between =>
    intro before x after hsource hfree
    refine h.isBlank_of_uncovered hsource fun f hf => ?_
    exact hfree f.span (hmerged ▸ List.mem_map_of_mem hf)
  case longest =>
    intro l hl
    obtain ⟨before, taken, after, hsource, -, hright⟩ :=
      h.exists_isRight (Finding.mem_filterMap_lexeme?.mp hl)
    have hlongest : l.IsLongest table before taken after := hright
    exact ⟨hlongest.candidates_ne_nil, before, taken, after, hsource, hlongest⟩
  case unmatched =>
    intro u hu
    obtain ⟨before, taken, after, hsource, -, hright⟩ :=
      h.exists_isRight (Finding.mem_filterMap_unrecognized?.mp hu)
    have hunmatched : u.IsUnmatched table before taken after := hright
    refine ⟨?_, before, taken, after, hsource, hunmatched⟩
    rw [hunmatched.text_eq, hunmatched.span_eq, hsource, Span.behind_text]

/-- The lexemes and the reports of a text, taken with any table there is, are its maximal
munch. -/
theorem tokenize_maximalMunch {table : SymbolTable} (ht : table.Obtained) (text : String) :
    MaximalMunch table text.toList (tokenize table text).1 (tokenize table text).2 := by
  obtain ⟨fs, hsegmented, heq⟩ := tokenize_segmented ht text
  rw [heq]
  exact hsegmented.maximalMunch

/-- The sign behind a letter of two bytes is lost with it, and a string that is left open is
reported where the number before it ends. -/
theorem maximalMunch_glued :
    SymbolTable.default.Obtained ∧
      MaximalMunch SymbolTable.default "a é$\n<=1'x".toList
        [⟨⟨⟨0, 1, 1⟩, ⟨1, 1, 2⟩⟩, [.identifier "a"]⟩, ⟨⟨⟨6, 2, 1⟩, ⟨8, 2, 3⟩⟩, [.symbol "<="]⟩,
          ⟨⟨⟨8, 2, 3⟩, ⟨9, 2, 4⟩⟩, [.int 1]⟩]
        [⟨"é$", ⟨⟨2, 1, 3⟩, ⟨5, 1, 5⟩⟩⟩, ⟨"'x", ⟨⟨9, 2, 4⟩, ⟨11, 2, 6⟩⟩⟩] := by
  have htokens : tokenize SymbolTable.default "a é$\n<=1'x" =
      ([⟨⟨⟨0, 1, 1⟩, ⟨1, 1, 2⟩⟩, [.identifier "a"]⟩, ⟨⟨⟨6, 2, 1⟩, ⟨8, 2, 3⟩⟩, [.symbol "<="]⟩,
        ⟨⟨⟨8, 2, 3⟩, ⟨9, 2, 4⟩⟩, [.int 1]⟩],
      [⟨"é$", ⟨⟨2, 1, 3⟩, ⟨5, 1, 5⟩⟩⟩, ⟨"'x", ⟨⟨9, 2, 4⟩, ⟨11, 2, 6⟩⟩⟩]) := by
    decide +kernel
  have h := tokenize_maximalMunch .default "a é$\n<=1'x"
  rw [htokens] at h
  exact ⟨.default, h⟩

end QueryExpr
