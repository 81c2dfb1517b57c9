/-
Token texts lexed again.

What a text spells does not depend on what follows it, only where it ends does.  A text that is
the longest match at its place ends there as every token that it spells: a word or a symbol
that went on would match more, and literals that are spelled alike end alike.  A token's text
therefore keeps its candidates when it stands on a line of its own.
-/
import QueryExpr.Proofs.Lexer.Lines
import QueryExpr.Proofs.Lexer.Literals

namespace QueryExpr

section Longest

variable {table : SymbolTable} {t after : List Char} {tok tok' : Token}

/-- What matches in front of the text `t ++ after` has no more bytes than `t`. -/
def IsGreatest (table : SymbolTable) (t after : List Char) : Prop :=
  ∀ t' tok, Reads table (t ++ after) t' tok → Text.byteSize t' ≤ Text.byteSize t

theorem stopsAt_of_isGreatest (hgreatest : IsGreatest table t after)
    (hword : Text.isWord t = true) : Text.StopsAt Text.isWordPart after := by
  have hlonger : Text.isWord (t ++ after.takeWhile Text.isWordPart) = true :=
    Text.isWord_append hword fun _ hc => List.mem_takeWhile_imp hc
  have hreads : Reads table (t ++ after) (t ++ after.takeWhile Text.isWordPart)
      (.identifier (String.ofList (t ++ after.takeWhile Text.isWordPart))) := by
    refine ⟨after.dropWhile Text.isWordPart, ?_, .identifier hlonger,
      Text.stopsAt_dropWhile _ after⟩
    rw [List.append_assoc, List.takeWhile_append_dropWhile]
  have hsize := hgreatest _ _ hreads
  have hlength := Text.length_le_byteSize (after.takeWhile Text.isWordPart)
  rw [Text.byteSize_append] at hsize
  exact Text.stopsAt_of_takeWhile_eq_nil (List.eq_nil_of_length_eq_zero (by omega))

theorem length_le_of_isGreatest (ht : table.Obtained) (hgreatest : IsGreatest table t after)
    {s : String} (hs : s ∈ table.symbols) (hfront : s.toList <+: t ++ after) :
    s.toList.length ≤ t.length := by
  cases hfound : table.longestSymbol? (t ++ after) with
  | none => exact absurd hfront (SymbolTable.longestSymbol?_eq_none_iff.mp hfound s hs)
  | some x =>
    obtain ⟨hx, ⟨after', hxfront⟩, hmax⟩ := ht.longestSymbol?_eq_some_iff.mp hfound
    have hends : Ends table x.toList after' (.symbol x) := by
      rw [← hxfront] at hmax
      exact hmax
    have hsize := hgreatest _ _ ⟨after', hxfront.symm, .symbol hx, hends⟩
    have hlonger : x.toList <+: t ++ after := ⟨after', hxfront⟩
    have hlength :=
      (Text.length_le_iff_byteSize_le hlonger (List.prefix_append t after)).mpr hsize
    exact Nat.le_trans (hmax s hs hfront) hlength

/-- A text that is the longest match ends there as every token that it spells. -/
theorem Spells.ends_of_isGreatest (ht : table.Obtained) (hsymbols : table.HasPlainSymbols)
    (h : Spells table t tok) (hgreatest : IsGreatest table t after) (hspells : Spells table t tok')
    (hends : Ends table t after tok') : Ends table t after tok := by
  have hliteral : tok.IsLiteral → Ends table t after tok := by
    intro hliteral
    have hliteral' := h.isLiteral_of_isLiteral ht hsymbols hliteral hspells
    have hkind := (hspells.literalKind_eq hliteral').symm.trans (h.literalKind_eq hliteral)
    exact hends.of_kind_eq hkind
  cases h with
  | int | decimal | scientific | str | date | datetime => exact hliteral trivial
  | identifier hword | keyword hword _ => exact stopsAt_of_isGreatest hgreatest hword
  | symbol hs => exact fun s hs hfront => length_le_of_isGreatest ht hgreatest hs hfront

end Longest

section Relexed

variable {table : SymbolTable} {before taken after source : List Char} {l : Lexeme}

/-- A text that spells a token is the longest match where nothing follows it. -/
theorem Spells.isLongest {t : List Char} {tok : Token} (ht : table.Obtained)
    (h : Spells table t tok) (before : List Char) :
    Lexeme.IsLongest table before t [] ⟨Span.behind before t,
      ((Matcher.allMatches table t).filter
        fun m => m.length = Text.byteSize t).map Match.token⟩ := by
  constructor
  case span_eq => rfl
  case reached =>
    refine ⟨⟨t, tok⟩, (Matcher.mem_allMatches_iff ht).mpr ?_, (Span.behind_length _ _).symm⟩
    exact ⟨[], rfl, h, ends_nil table t tok⟩
  case greatest =>
    rintro ⟨t', tok'⟩ hm
    have hfront := ((Matcher.mem_allMatches_iff ht).mp hm).isPrefix
    rw [List.append_nil] at hfront
    rw [Span.behind_length]
    exact Text.byteSize_le_of_isPrefix hfront
  case candidates_eq => rw [List.append_nil, Span.behind_length]

/-- A lexeme is the longest match of its text when nothing follows it, with the same
candidates. -/
theorem Lexeme.IsLongest.alone (ht : table.Obtained) (hsymbols : table.HasPlainSymbols)
    (h : l.IsLongest table before taken after) (before' : List Char) :
    Lexeme.IsLongest table before' taken [] ⟨Span.behind before' taken, l.candidates⟩ := by
  obtain ⟨tok, hspells, hends⟩ := h.exists_spells ht
  have hgreatest : IsGreatest table taken after := fun _ _ => h.byteSize_le ht
  have hsame : l.candidates = ((Matcher.allMatches table taken).filter
      fun m => m.length = Text.byteSize taken).map Match.token := by
    rw [h.candidates_eq, h.span_eq, Span.behind_length]
    congr 1
    apply Matcher.filter_allMatches_congr ht
    intro t tok' hlength
    have hsize : Text.byteSize t = Text.byteSize taken := of_decide_eq_true hlength
    have hnone : Reads table (taken ++ []) t tok' ↔ _ := reads_append_iff hsize
    rw [List.append_nil] at hnone
    rw [reads_append_iff hsize, hnone]
    constructor
    · rintro ⟨htaken, hspells', -⟩
      exact ⟨htaken, hspells', ends_nil table taken tok'⟩
    · rintro ⟨htaken, hspells', -⟩
      exact ⟨htaken, hspells', hspells'.ends_of_isGreatest ht hsymbols hgreatest hspells hends⟩
  rw [hsame]
  exact hspells.isLongest ht before'

theorem Segmented.lexeme (hne : taken ≠ []) (h : l.IsLongest table before taken []) :
    Segmented table before taken [.lexeme l] := by
  have hblanks : ∀ x ∈ ([] : List Char), Text.isBlank x = true := fun x hx => by cases hx
  have hf : (Finding.lexeme l).IsRight table (before ++ []) taken [] := by
    rw [List.append_nil]
    exact h
  have hfound := Segmented.found hblanks hne hf (.blank hblanks)
  rwa [List.nil_append, List.append_nil] at hfound

end Relexed

/-- The lexeme is the longest match at its place in the source. -/
def Lexeme.StandsIn (table : SymbolTable) (source : List Char) (l : Lexeme) : Prop :=
  l.span.text source ≠ [] ∧
    ∃ before after, l.IsLongest table before (l.span.text source) after

theorem tokenize_standsIn {table : SymbolTable} (ht : table.Obtained) {text : String} {l : Lexeme}
    (hl : l ∈ (tokenize table text).1) : l.StandsIn table text.toList := by
  obtain ⟨fs, hfs, heq⟩ := tokenize_segmented ht text
  rw [heq] at hl
  obtain ⟨read, taken, after, hsource, hne, hright⟩ :=
    hfs.exists_isRight (Finding.mem_filterMap_lexeme?.mp hl)
  have hlongest : l.IsLongest table read taken after := hright
  have htext : l.span.text text.toList = taken := by
    rw [hlongest.span_eq, hsource, Span.behind_text]
  rw [Lexeme.StandsIn, htext]
  exact ⟨hne, read, after, hlongest⟩

/-- The texts of lexemes of a source. -/
def textsIn (source : List Char) (ls : List Lexeme) : List (List Char) :=
  ls.map fun l => l.span.text source

/-- The texts with a newline between them. -/
def asLines (texts : List (List Char)) : List Char := ['\n'].intercalate texts

theorem asLines_cons {t : List Char} {texts : List (List Char)} (h : texts ≠ []) :
    asLines (t :: texts) = t ++ '\n' :: asLines texts := by
  rw [asLines, List.intercalate_cons_of_ne_nil h, List.append_assoc, List.singleton_append]
  rfl

section Lines

variable {table : SymbolTable} {source : List Char} {ls : List Lexeme}

/-- Texts of lexemes, one on a line, have segments with the same texts and candidates. -/
theorem exists_segmented_asLines (ht : table.Obtained) (hsymbols : table.HasPlainSymbols)
    (hls : ∀ l ∈ ls, l.StandsIn table source) (before : List Char) :
    ∃ ls' : List Lexeme,
      Segmented table before (asLines (textsIn source ls)) (ls'.map Finding.lexeme) ∧
      ls'.map Lexeme.candidates = ls.map Lexeme.candidates ∧
      textsIn (before ++ asLines (textsIn source ls)) ls' = textsIn source ls := by
  -- the lines that follow stand behind this one, so what stands before them grows
  induction ls generalizing before with
  | nil => exact ⟨[], .blank (fun x hx => by cases hx), rfl, rfl⟩
  | cons l ls ih =>
    obtain ⟨hne, before₀, after₀, hl⟩ := hls l List.mem_cons_self
    have hsegment := Segmented.lexeme hne (hl.alone ht hsymbols before)
    by_cases hlast : ls = []
    · subst hlast
      have hline : asLines (textsIn source [l]) = l.span.text source := List.intercalate_singleton
      have htext := Span.behind_text before (l.span.text source) []
      rw [List.append_nil] at htext
      refine ⟨[⟨Span.behind before (l.span.text source), l.candidates⟩], ?_, rfl, ?_⟩
      · rw [hline]
        exact hsegment
      · rw [hline]
        exact congrArg ([·]) htext
    · obtain ⟨ls', hsegments, hcandidates, htexts⟩ :=
        ih (fun l hl => hls l (List.mem_cons_of_mem _ hl)) (before ++ l.span.text source ++ ['\n'])
      have hlines : asLines (textsIn source (l :: ls)) =
          l.span.text source ++ '\n' :: asLines (textsIn source ls) :=
        asLines_cons (by simpa [textsIn] using hlast)
      refine ⟨⟨Span.behind before (l.span.text source), l.candidates⟩ :: ls', ?_, ?_, ?_⟩
      · rw [hlines]
        exact hsegment.append_newline ht hsymbols.head?_ne_quote (by simp) hsegments
      · rw [List.map_cons, List.map_cons, hcandidates]
      · have htext := Span.behind_text before (l.span.text source)
          ('\n' :: asLines (textsIn source ls))
        have hwhole : before ++ (l.span.text source ++ '\n' :: asLines (textsIn source ls)) =
            before ++ l.span.text source ++ ['\n'] ++ asLines (textsIn source ls) := by simp
        rw [hlines, hwhole]
        rw [hwhole] at htext
        exact congrArg₂ List.cons htext htexts

end Lines

/-- The texts of the lexemes of a text. -/
def tokenTexts (table : SymbolTable) (text : String) : List String :=
  (textsIn text.toList (tokenize table text).1).map String.ofList

/-- The texts of the lexemes, one on a line, are lexed to the same texts and candidates again. -/
theorem tokenize_intercalate_tokenTexts {table : SymbolTable} (ht : table.Obtained)
    (hsymbols : table.HasPlainSymbols) (text : String) :
    (tokenize table ("\n".intercalate (tokenTexts table text))).2 = [] ∧
      tokenTexts table ("\n".intercalate (tokenTexts table text)) = tokenTexts table text ∧
      (tokenize table ("\n".intercalate (tokenTexts table text))).1.map Lexeme.candidates =
        (tokenize table text).1.map Lexeme.candidates := by
  obtain ⟨ls, hsegments, hcandidates, htexts⟩ :=
    exists_segmented_asLines ht hsymbols (fun _ => @tokenize_standsIn _ ht text _) []
  have hjoined : ("\n".intercalate (tokenTexts table text)).toList =
      asLines (textsIn text.toList (tokenize table text).1) := by
    rw [String.toList_intercalate, tokenTexts, List.map_map]
    simp [Function.comp_def, asLines]
  rw [List.nil_append, ← hjoined] at htexts
  rw [← hjoined] at hsegments
  have hagain := tokenize_of_segmented ht hsegments
  rw [Finding.filterMap_lexeme?_lexeme, Finding.filterMap_unrecognized?_lexeme] at hagain
  have hsame : tokenTexts table ("\n".intercalate (tokenTexts table text)) =
      tokenTexts table text := by
    show (textsIn _ (tokenize table _).1).map String.ofList = _
    rw [hagain, htexts]
    rfl
  exact ⟨by rw [hagain], hsame, by rw [hagain, hcandidates]⟩

/-- The digit behind what might be a day keeps the first three numbers apart. -/
theorem tokenize_intercalate_tokenTexts_glued :
    SymbolTable.default.HasPlainSymbols ∧
      tokenTexts SymbolTable.default "2024-01-315'a''b'is" =
        ["2024", "-", "01", "-", "315", "'a''b'", "is"] ∧
      (tokenize SymbolTable.default "2024\n-\n01\n-\n315\n'a''b'\nis").2 = [] ∧
      tokenTexts SymbolTable.default "2024\n-\n01\n-\n315\n'a''b'\nis" =
        ["2024", "-", "01", "-", "315", "'a''b'", "is"] ∧
      (tokenize SymbolTable.default "2024\n-\n01\n-\n315\n'a''b'\nis").1.map Lexeme.candidates =
        [[.int 2024], [.symbol "-"], [.int 1], [.symbol "-"], [.int 315], [.str "a'b"],
          [.identifier "is", .keyword "is"]] := by
  have htexts : tokenTexts SymbolTable.default "2024-01-315'a''b'is" =
      ["2024", "-", "01", "-", "315", "'a''b'", "is"] := by decide +kernel
  have hcandidates : (tokenize SymbolTable.default "2024-01-315'a''b'is").1.map Lexeme.candidates =
      [[.int 2024], [.symbol "-"], [.int 1], [.symbol "-"], [.int 315], [.str "a'b"],
        [.identifier "is", .keyword "is"]] := by decide +kernel
  have h := tokenize_intercalate_tokenTexts .default SymbolTable.hasPlainSymbols_default
    "2024-01-315'a''b'is"
  rw [htexts, hcandidates] at h
  have hlines : "\n".intercalate ["2024", "-", "01", "-", "315", "'a''b'", "is"] =
      "2024\n-\n01\n-\n315\n'a''b'\nis" := by decide +kernel
  rw [hlines] at h
  exact ⟨SymbolTable.hasPlainSymbols_default, htexts, h⟩

end QueryExpr
