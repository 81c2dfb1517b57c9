/-
A newline divides what is lexed.

No token but a string goes over a newline, and what follows a newline does not decide how a
token before it ends.  So the matches at a place are the same whether or not further lines
follow, unless a string is open there, and the segments of two texts with a newline between
them are those of the first and then those of the second.
-/
import QueryExpr.Proofs.Lexer.Segments
import QueryExpr.Proofs.Lexer.Shifts

namespace QueryExpr

section Fronts

variable {t text more : List Char} {P : List Char → Prop}

/-- A front without a newline is a front of the lines before the newline. -/
theorem exists_append_newline_iff (hnewline : '\n' ∉ t) :
    (∃ after, text ++ '\n' :: more = t ++ after ∧ P after) ↔
      ∃ after, text = t ++ after ∧ P (after ++ '\n' :: more) := by
  constructor
  · rintro ⟨after, heq, hafter⟩
    rcases append_eq_append_cons heq.symm with ⟨others, rfl⟩ | ⟨after', rfl, rfl⟩
    · exact absurd (List.mem_append_right text List.mem_cons_self) hnewline
    · exact ⟨after', rfl, hafter⟩
  · rintro ⟨after, rfl, hafter⟩
    exact ⟨after ++ '\n' :: more, List.append_assoc t after _, hafter⟩

theorem isPrefix_append_newline (hnewline : '\n' ∉ t) :
    t <+: text ++ '\n' :: more ↔ t <+: text := by
  have h := @exists_append_newline_iff t text more (fun _ => True) hnewline
  simpa [List.IsPrefix, eq_comm] using h

theorem Text.AllDigits.newline_not_mem (h : Text.AllDigits t) : '\n' ∉ t := h.not_mem rfl

theorem Text.newline_not_mem_of_isWord (h : Text.isWord t = true) : '\n' ∉ t :=
  Text.not_mem_of_isWord h rfl

end Fronts

namespace Decimal

variable {whole fraction mantissa part after more : List Char} {e : Int}

theorem IsMantissa.newline_not_mem (h : IsMantissa whole fraction mantissa) :
    '\n' ∉ mantissa := by
  cases h with
  | pointed hwhole hfraction _ =>
    simp [hwhole.newline_not_mem, hfraction.newline_not_mem]
  | plain hwhole _ => exact hwhole.newline_not_mem

theorem IsExponent.newline_not_mem (h : IsExponent part e) : '\n' ∉ part := by
  cases h with
  | unsigned hmark hds _ | plus hmark hds _ | minus hmark hds _ =>
    rcases hmark with rfl | rfl <;> simp [hds.newline_not_mem]

theorem exponentPart?_append_newline :
    exponentPart? (after ++ '\n' :: more) = exponentPart? after := by
  apply Option.ext
  rintro ⟨part, e⟩
  rw [exponentPart?_eq_some_iff, exponentPart?_eq_some_iff]
  by_cases hpart : IsExponent part e
  · rw [exists_append_newline_iff hpart.newline_not_mem]
    simp only [Text.stopsAt_append_newline (p := Char.isDigit) rfl]
  · simp [hpart]

end Decimal

theorem Matcher.fractionDigits_append_newline {after more : List Char} :
    fractionDigits (after ++ '\n' :: more) = fractionDigits after := by
  cases after with
  | nil => rfl
  | cons c after =>
    by_cases hc : c = '.'
    · subst hc
      exact Text.takeWhile_append_newline rfl
    · simp [fractionDigits, hc]

section Newline

variable {table : SymbolTable} {t text after more : List Char} {tok : Token}

theorem Spells.newline_not_mem (ht : table.Obtained) (h : Spells table t tok)
    (hkind : tok.kind ≠ "string") : '\n' ∉ t := by
  cases h with
  | int hds _ _ => exact hds.newline_not_mem
  | decimal hwhole hfraction hne =>
    exact (Decimal.IsMantissa.pointed hwhole hfraction hne).newline_not_mem
  | scientific hmantissa hpart => simp [hmantissa.newline_not_mem, hpart.newline_not_mem]
  | str => exact absurd rfl hkind
  | date hd => exact hd.not_mem rfl (by decide)
  | @datetime _ _ ds sep _ _ _ _ _ hday hsep hclock hds _ =>
    have hday' : '\n' ∉ _ := hday.not_mem rfl (by decide)
    have hclock' : '\n' ∉ _ := hclock.not_mem rfl (by decide)
    have hfraction : '\n' ∉ fractionPart ds := not_mem_fractionPart hds rfl (by decide)
    rcases hsep with rfl | rfl <;> simp [hday', hclock', hfraction]
  | identifier hword | keyword hword _ => exact Text.newline_not_mem_of_isWord hword
  | symbol hs =>
    intro hmem
    have hblank := ht.isBlank_eq_false_of_mem hs hmem
    cases hblank

/-- What a token ends before is decided on its own line. -/
theorem ends_append_newline (ht : table.Obtained) :
    Ends table t (after ++ '\n' :: more) tok ↔ Ends table t after tok := by
  cases tok with
  | int | date | str | identifier | keyword => exact Text.stopsAt_append_newline rfl
  | float =>
    simp only [Ends, Decimal.exponentPart?_append_newline]
    rw [Text.stopsAt_append_newline (p := Char.isDigit) rfl]
  | datetime =>
    simp only [Ends, Matcher.fractionDigits_append_newline]
    rw [Text.stopsAt_append_newline (p := Char.isDigit) rfl]
  | symbol =>
    have hfront : ∀ s ∈ table.symbols,
        (s.toList <+: t ++ (after ++ '\n' :: more) ↔ s.toList <+: t ++ after) := by
      intro s hs
      rw [← List.append_assoc]
      exact isPrefix_append_newline (Spells.symbol hs |>.newline_not_mem ht (by simp [Token.kind]))
    constructor
    · intro h s hs hstart
      exact h s hs ((hfront s hs).mpr hstart)
    · intro h s hs hstart
      exact h s hs ((hfront s hs).mp hstart)

theorem Spells.eq_str_of_quote {rest : List Char} (ht : table.Obtained)
    (hsymbols : ∀ s ∈ table.symbols, s.toList.head? ≠ some '\'')
    (h : Spells table ('\'' :: rest) tok) :
    ∃ value, '\'' :: rest = inQuotes value ∧ tok = .str (String.ofList value) := by
  obtain ⟨c, rest', heq, hc⟩ := h.exists_head ht
  obtain rfl : '\'' = c := (List.cons.inj heq).1
  generalize htext : '\'' :: rest = text at h
  cases h with
  | int | date | datetime => cases hc
  | decimal | scientific => exact absurd hc (by simp [Begins])
  | str value => exact ⟨value, rfl, rfl⟩
  | identifier | keyword => cases hc
  | symbol hs => exact absurd hc (hsymbols _ hs)

/-- A string that the text starts with is closed in it. -/
def QuoteCloses (text : List Char) : Prop :=
  text.head? = some '\'' →
    ∃ value after, text = inQuotes value ++ after ∧ Text.StopsAt (· == '\'') after

theorem string_append_newline (hquote : QuoteCloses text) :
    Matcher.string table (text ++ '\n' :: more) = Matcher.string table text := by
  cases text with
  | nil => rfl
  | cons c rest =>
    by_cases hc : c = '\''
    · subst hc
      obtain ⟨value, after, heq, hafter⟩ := hquote rfl
      have hclosed : ∀ behind, Text.StopsAt (· == '\'') behind →
          Matcher.string table (inQuotes value ++ behind) =
            some ⟨inQuotes value, .str (String.ofList value)⟩ :=
        fun behind hbehind =>
          Matcher.string_eq_some_iff.mpr ⟨rfl, behind, rfl, .str value, hbehind⟩
      rw [heq, hclosed after hafter, List.append_assoc]
      exact hclosed _ ((Text.stopsAt_append_newline rfl).mpr hafter)
    · simp [Matcher.string, hc]

theorem reads_append_newline (ht : table.Obtained) (hquote : QuoteCloses text) :
    Reads table (text ++ '\n' :: more) t tok ↔ Reads table text t tok := by
  by_cases hkind : tok.kind = "string"
  -- a string may go over the newline, so it is the quote before the newline that settles it
  · have hstring : Matcher.string table (text ++ '\n' :: more) = Matcher.string table text :=
      string_append_newline hquote
    have hmatch : Matcher.string table (text ++ '\n' :: more) = some ⟨t, tok⟩ ↔
        Matcher.string table text = some ⟨t, tok⟩ := by rw [hstring]
    simpa [Matcher.string_eq_some_iff, hkind] using hmatch
  · by_cases hspells : Spells table t tok
    · unfold Reads
      rw [exists_append_newline_iff (hspells.newline_not_mem ht hkind)]
      simp only [ends_append_newline ht]
    · simp [Reads, hspells]

theorem allMatches_append_newline (ht : table.Obtained) (hquote : QuoteCloses text) :
    Matcher.allMatches table (text ++ '\n' :: more) = Matcher.allMatches table text :=
  Matcher.allMatches_congr ht fun _ _ => reads_append_newline ht hquote

end Newline

namespace Finding.IsRight

variable {table : SymbolTable} {before taken after more : List Char} {f : Finding}

/-- Where no unrecognized text starts with a quote, strings are closed. -/
theorem quoteCloses (ht : table.Obtained)
    (hsymbols : ∀ s ∈ table.symbols, s.toList.head? ≠ some '\'') (hne : taken ≠ [])
    (hopen : ∀ u, f = .unrecognized u → u.text.toList.head? ≠ some '\'')
    (h : f.IsRight table before taken after) : QuoteCloses (taken ++ after) := by
  intro hhead
  obtain ⟨c, rest, rfl⟩ := List.exists_cons_of_ne_nil hne
  obtain rfl : c = '\'' := Option.some.inj hhead
  cases f with
  | lexeme l =>
    obtain ⟨tok, hspells, hends⟩ := Lexeme.IsLongest.exists_spells ht h
    obtain ⟨value, hvalue, rfl⟩ := hspells.eq_str_of_quote ht hsymbols
    exact ⟨value, after, by rw [hvalue], hends⟩
  | unrecognized u =>
    have htext := Unrecognized.IsUnmatched.text_eq h
    exact absurd (by rw [htext, String.toList_ofList]; rfl) (hopen u rfl)

theorem append_newline (ht : table.Obtained) (hquote : QuoteCloses (taken ++ after))
    (h : f.IsRight table before taken after) :
    f.IsRight table before taken (after ++ '\n' :: more) := by
  have hmatches : Matcher.allMatches table (taken ++ (after ++ '\n' :: more)) =
      Matcher.allMatches table (taken ++ after) := by
    rw [← List.append_assoc]
    exact allMatches_append_newline ht hquote
  cases f with
  | lexeme l =>
    have hl : l.IsLongest table before taken after := h
    exact ⟨hl.span_eq, hmatches ▸ hl.reached, hmatches ▸ hl.greatest, hmatches ▸ hl.candidates_eq⟩
  | unrecognized u =>
    have hu : u.IsUnmatched table before taken after := h
    refine ⟨hu.span_eq, hu.text_eq, hmatches ▸ hu.unmatched, hu.unbroken, ?_⟩
    cases after with
    | nil =>
      rintro x ⟨⟩
      decide
    | cons c after => exact hu.ended

end Finding.IsRight

namespace Segmented

variable {table : SymbolTable} {before first second source : List Char} {fs gs : List Finding}
  {f : Finding}

/-- The segments of the lines before a newline go on with those of the lines behind it. -/
theorem append_newline (ht : table.Obtained)
    (hsymbols : ∀ s ∈ table.symbols, s.toList.head? ≠ some '\'')
    (hopen : ∀ u, Finding.unrecognized u ∈ fs → u.text.toList.head? ≠ some '\'')
    (h : Segmented table before first fs)
    (k : Segmented table (before ++ first ++ ['\n']) second gs) :
    Segmented table before (first ++ '\n' :: second) (fs ++ gs) := by
  induction h with
  | @blank before rest hblank =>
    -- the newline joins the blanks in front of the next finding
    have hblanks : ∀ x ∈ rest ++ ['\n'], Text.isBlank x = true := by
      intro x hx
      rcases List.mem_append.mp hx with hx | hx
      · exact hblank x hx
      · cases List.mem_singleton.mp hx
        decide
    rw [List.append_cons]
    exact blanks_append hblanks (by simpa only [List.append_assoc, List.nil_append] using k)
  | @found before blanks taken after f fs hblanks hne hf tail ih =>
    have hquote := hf.quoteCloses ht hsymbols hne fun u hu => hopen u (hu ▸ List.mem_cons_self)
    rw [List.append_assoc, List.append_assoc]
    refine .found hblanks hne (hf.append_newline ht hquote) (ih ?_ ?_)
    · exact fun u hu => hopen u (List.mem_cons_of_mem f hu)
    · simpa only [List.append_assoc] using k

/-- A finding covers the same text when more text follows. -/
theorem span_text_append (h : Segmented table [] source fs) (hf : f ∈ fs) (more : List Char) :
    f.span.text (source ++ more) = f.span.text source := by
  obtain ⟨read, taken, after, rfl, -, hright⟩ := h.exists_isRight hf
  rw [hright.span_eq, List.nil_append, List.append_assoc, List.append_assoc, Span.behind_text,
    Span.behind_text]

/-- A finding covers the same text when it stands farther down. -/
theorem span_text_shift (h : Segmented table [] source fs) (hf : f ∈ fs) (front : List Char) :
    (f.span.shift (Text.byteSize front + 1) (front.count '\n' + 1)).text
      (front ++ '\n' :: source) = f.span.text source := by
  obtain ⟨read, taken, after, rfl, -, hright⟩ := h.exists_isRight hf
  rw [hright.span_eq, List.nil_append, ← Span.behind_append_newline, Span.behind_text]
  have hsource : front ++ '\n' :: (read ++ (taken ++ after)) =
      (front ++ '\n' :: read) ++ (taken ++ after) := by simp
  rw [hsource, Span.behind_text]

end Segmented

/-- Two texts with a newline between them, the first without an open string, are tokenized one
after the other.  What the second one gives stands farther down by the first. -/
theorem tokenize_append_newline {table : SymbolTable} (ht : table.Obtained)
    (hsymbols : ∀ s ∈ table.symbols, s.toList.head? ≠ some '\'') (a b : String)
    (hopen : ∀ u ∈ (tokenize table a).2, u.text.toList.head? ≠ some '\'') :
    tokenize table (a ++ "\n" ++ b) =
        ((tokenize table a).1 ++ (tokenize table b).1.map
            (Lexeme.shift (a.utf8ByteSize + 1) (a.toList.count '\n' + 1)),
          (tokenize table a).2 ++ (tokenize table b).2.map
            (Unrecognized.shift (a.utf8ByteSize + 1) (a.toList.count '\n' + 1))) ∧
      (∀ l ∈ (tokenize table a).1,
        l.span.text (a ++ "\n" ++ b).toList = l.span.text a.toList) ∧
      ∀ l ∈ (tokenize table b).1,
        (l.shift (a.utf8ByteSize + 1) (a.toList.count '\n' + 1)).span.text
          (a ++ "\n" ++ b).toList = l.span.text b.toList := by
  obtain ⟨fs, hfs, ha⟩ := tokenize_segmented ht a
  obtain ⟨gs, hgs, hb⟩ := tokenize_segmented ht b
  rw [ha] at hopen
  have htext : (a ++ "\n" ++ b).toList = a.toList ++ '\n' :: b.toList := by simp
  have hshift := hgs.shift a.toList
  rw [Text.byteSize_toList] at hshift
  have hbehind : Segmented table ([] ++ a.toList ++ ['\n']) b.toList
      (gs.map (Finding.shift (a.utf8ByteSize + 1) (a.toList.count '\n' + 1))) := by
    simpa using hshift
  have hjoined := hfs.append_newline ht hsymbols
    (fun u hu => hopen u (Finding.mem_filterMap_unrecognized?.mpr hu)) hbehind
  rw [← htext] at hjoined
  rw [ha, hb, htext]
  refine ⟨?_, fun l hl => ?_, fun l hl => ?_⟩
  · rw [tokenize_of_segmented ht hjoined, List.filterMap_append, List.filterMap_append,
      Finding.filterMap_lexeme?_shift, Finding.filterMap_unrecognized?_shift]
  · exact hfs.span_text_append (Finding.mem_filterMap_lexeme?.mp hl) _
  · have hspan := hgs.span_text_shift (Finding.mem_filterMap_lexeme?.mp hl) a.toList
    rw [Text.byteSize_toList] at hspan
    exact hspan

/-- The string in the first text goes over a line, and a string is open in the second one. -/
theorem tokenize_append_newline_open :
    (∀ s ∈ SymbolTable.default.symbols, s.toList.head? ≠ some '\'') ∧
      (∀ u ∈ (tokenize SymbolTable.default "a <= 'b\n''' é").2, u.text.toList.head? ≠ some '\'') ∧
      tokenize SymbolTable.default ("a <= 'b\n''' é" ++ "\n" ++ "2024-01-31 'c") =
        ([⟨⟨⟨0, 1, 1⟩, ⟨1, 1, 2⟩⟩, [.identifier "a"]⟩, ⟨⟨⟨2, 1, 3⟩, ⟨4, 1, 5⟩⟩, [.symbol "<="]⟩,
          ⟨⟨⟨5, 1, 6⟩, ⟨11, 2, 4⟩⟩, [.str "b\n'"]⟩,
          ⟨⟨⟨15, 3, 1⟩, ⟨25, 3, 11⟩⟩, [.date ⟨2024, 1, 31, by decide⟩]⟩],
        [⟨"é", ⟨⟨12, 2, 5⟩, ⟨14, 2, 6⟩⟩⟩, ⟨"'c", ⟨⟨26, 3, 12⟩, ⟨28, 3, 14⟩⟩⟩]) := by
  have hsymbols : ∀ s ∈ SymbolTable.default.symbols, s.toList.head? ≠ some '\'' := by decide
  have hopen : ∀ u ∈ (tokenize SymbolTable.default "a <= 'b\n''' é").2,
      u.text.toList.head? ≠ some '\'' := by decide +kernel
  have h := tokenize_append_newline .default hsymbols "a <= 'b\n''' é" "2024-01-31 'c" hopen
  refine ⟨hsymbols, hopen, h.1.trans ?_⟩
  decide +kernel

end QueryExpr
