/-
Entries of a table as texts of their own.

A text that spells a token is lexed to one lexeme when nothing else stands in it, whatever other
tokens its front may spell, and the lexeme leaves the choice among all tokens that the whole text
spells.  Each entry of a table is such a text: a symbol spells itself, and what is a keyword in
some case is a word in the sense of the table and so in that of the matchers.
-/
import QueryExpr.Proofs.Lexer.Ambiguity
import QueryExpr.Proofs.Symbols.Lookup

namespace QueryExpr

/-- The text is lexed to this lexeme alone, which starts and ends with the text. -/
structure Lexeme.IsWhole (table : SymbolTable) (text : String) (l : Lexeme) : Prop where
  tokenize_eq : tokenize table text = ([l], [])
  start_eq : l.span.start = Position.start
  stop_eq : l.span.stop.offset = text.utf8ByteSize

section Whole

variable {table : SymbolTable} {text : String} {tok : Token}

/-- A text that spells a token is one lexeme. -/
theorem Spells.exists_isWhole (ht : table.Obtained) (h : Spells table text.toList tok) :
    ∃ l : Lexeme, l.IsWhole table text ∧ l.IsLongest table [] text.toList [] := by
  have hlongest := h.isLongest ht []
  obtain ⟨c, rest, htext, -⟩ := h.exists_head ht
  have hne : text.toList ≠ [] := by
    rw [htext]
    exact List.cons_ne_nil c rest
  have htokens := tokenize_of_segmented ht (Segmented.lexeme hne hlongest)
  refine ⟨_, ⟨htokens, rfl, ?_⟩, hlongest⟩
  rw [Span.behind_stop_offset, Text.byteSize_nil, Nat.zero_add, Text.byteSize_toList]

/-- All tokens that the text of a lexeme spells are its candidates when nothing follows it. -/
theorem Lexeme.IsLongest.mem_candidates_of_spells {before taken : List Char} {l : Lexeme}
    (ht : table.Obtained) (h : l.IsLongest table before taken [])
    (hspells : Spells table taken tok) :
    tok ∈ l.candidates :=
  (h.mem_candidates_iff ht).mpr ⟨hspells, ends_nil table taken tok⟩

/-- Candidates among which there is a keyword start with the word and the keyword. -/
theorem Choice.isPrefix_of_keyword {cs : List Token} {k : String} (h : Choice text cs)
    (hk : .keyword k ∈ cs) : [.identifier text, .keyword (Text.lower text)] <+: cs := by
  cases h with
  | wordOrKeyword => exact List.prefix_refl _
  | wordOrKeywordOrSymbol => exact ⟨[.symbol text], rfl⟩
  | literal hliteral | literalOrSymbol hliteral =>
    simp only [List.mem_cons, List.not_mem_nil, or_false, reduceCtorEq] at hk
    subst hk
    exact hliteral.elim
  | word | wordOrSymbol | symbol => simp at hk

end Whole

section Entries

variable {keywords symbols : List String} {t : SymbolTable} {s w : String}

theorem spells_symbol_of_ofEntries (h : SymbolTable.ofEntries keywords symbols = .ok t)
    (hs : s ∈ symbols) : Spells t s.toList (.symbol s) :=
  .symbol ((SymbolTable.mem_symbols_iff h).mpr hs)

/-- A text that a keyword is in another case is a word, as the keyword is one. -/
theorem spells_keyword_of_ofEntries (h : SymbolTable.ofEntries keywords symbols = .ok t)
    (hw : ∃ k ∈ keywords, Text.lower w = Text.lower k) :
    Spells t w.toList (.keyword (Text.lower w)) := by
  obtain ⟨k, hk, hlower⟩ := hw
  have hword : Text.isWord w.toList = true := by
    rw [← Text.isWord_lower, hlower]
    exact (SymbolTable.ofEntries_eq_ok_iff.mp h).1 k hk
  have hfound : t.keyword? w = some (Text.lower w) :=
    (SymbolTable.keyword?_eq_some_iff_of_ofEntries h).mpr ⟨rfl, k, hk, hlower.symm⟩
  exact .keyword hword (by rw [String.ofList_toList]; exact hfound)

/-- No entry is dead: a symbol that stands alone is lexed to one lexeme that may be the symbol,
and a keyword in any case is lexed to one that may be the word or else the keyword. -/
theorem entries_are_whole (h : SymbolTable.ofEntries keywords symbols = .ok t) :
    (∀ s ∈ symbols, ∃ l : Lexeme, l.IsWhole t s ∧ .symbol s ∈ l.candidates) ∧
      ∀ w, (∃ k ∈ keywords, Text.lower w = Text.lower k) →
        ∃ l : Lexeme, l.IsWhole t w ∧
          [.identifier w, .keyword (Text.lower w)] <+: l.candidates := by
  have ht : t.Obtained := .entries h
  constructor
  · intro s hs
    have hspells := spells_symbol_of_ofEntries h hs
    obtain ⟨l, hwhole, hlongest⟩ := hspells.exists_isWhole ht
    exact ⟨l, hwhole, hlongest.mem_candidates_of_spells ht hspells⟩
  · intro w hw
    have hspells := spells_keyword_of_ofEntries h hw
    obtain ⟨l, hwhole, hlongest⟩ := hspells.exists_isWhole ht
    have hchoice := hlongest.choice ht
    rw [String.ofList_toList] at hchoice
    have hkeyword := hlongest.mem_candidates_of_spells ht hspells
    exact ⟨l, hwhole, hchoice.isPrefix_of_keyword hkeyword⟩

/-- A day with an open quote behind it is a symbol here, and a keyword in another case is a symbol
besides. -/
theorem entries_are_whole_clashing :
    SymbolTable.ofEntries ["IN"] ["iN", "2024-01-31'", "-", "é'"] =
        .ok ⟨["in"], ["2024-01-31'", "é'", "iN", "-"]⟩ ∧
      (∃ l : Lexeme, l.IsWhole ⟨["in"], ["2024-01-31'", "é'", "iN", "-"]⟩ "2024-01-31'" ∧
        .symbol "2024-01-31'" ∈ l.candidates) ∧
      ∃ l : Lexeme, l.IsWhole ⟨["in"], ["2024-01-31'", "é'", "iN", "-"]⟩ "iN" ∧
        [.identifier "iN", .keyword (Text.lower "iN")] <+: l.candidates := by
  have h : SymbolTable.ofEntries ["IN"] ["iN", "2024-01-31'", "-", "é'"] =
      .ok ⟨["in"], ["2024-01-31'", "é'", "iN", "-"]⟩ := by decide +kernel
  obtain ⟨hsymbol, hkeyword⟩ := entries_are_whole h
  exact ⟨h, hsymbol _ (by decide), hkeyword _ ⟨"IN", by decide, by decide +kernel⟩⟩

end Entries

end QueryExpr
