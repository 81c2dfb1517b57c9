/-
What a lexeme may stand for.

The candidates of a lexeme are the tokens that its text spells and that end where it ends.  They
come in the order of the matchers, at most one of each kind.  Two literals that are spelled alike
are of one kind and no literal is spelled like a word, so there is a literal or there are the
tokens of a word, and a symbol may be spelled like either.
-/
import QueryExpr.Proofs.Lexer.Literals
import QueryExpr.Proofs.Lexer.Relexing
import QueryExpr.Proofs.Symbols.Order

namespace QueryExpr

/-- The lists of tokens among which a lexeme of the text leaves the choice. -/
inductive Choice (text : String) : List Token → Prop where
  | literal {tok : Token} (h : tok.IsLiteral) : Choice text [tok]
  | literalOrSymbol {tok : Token} (h : tok.IsLiteral) : Choice text [tok, .symbol text]
  | word : Choice text [.identifier text]
  | wordOrKeyword : Choice text [.identifier text, .keyword (Text.lower text)]
  | wordOrSymbol : Choice text [.identifier text, .symbol text]
  | wordOrKeywordOrSymbol :
      Choice text [.identifier text, .keyword (Text.lower text), .symbol text]
  | symbol : Choice text [.symbol text]

namespace Token

def literalKinds : List String := ["int", "float", "string", "date", "datetime"]

section Kinds

variable {toks : List Token} {tok : Token}

theorem isLiteral_of_kind_mem (h : tok.kind ∈ literalKinds) : tok.IsLiteral := by
  cases tok with
  | int | float | str | date | datetime => trivial
  | identifier | keyword | symbol => simp [kind, literalKinds] at h

theorem exists_append_of_kinds {kinds kinds' : List String}
    (h : (toks.map kind).Sublist (kinds ++ kinds')) :
    ∃ front back, toks = front ++ back ∧ (front.map kind).Sublist kinds ∧
      (back.map kind).Sublist kinds' := by
  obtain ⟨ks, ks', hkinds, hfront, hback⟩ := List.sublist_append_iff.mp h
  obtain ⟨front, back, rfl, rfl, rfl⟩ := List.map_eq_append_iff.mp hkinds
  exact ⟨front, back, rfl, hfront, hback⟩

theorem eq_singleton_of_kind {k : String} (h : (toks.map kind).Sublist [k])
    (heq : ∀ t ∈ toks, t.kind = k → t = tok) : toks = [] ∨ toks = [tok] := by
  rcases List.sublist_singleton.mp h with hnone | hone
  · exact Or.inl (List.map_eq_nil_iff.mp hnone)
  · obtain ⟨t, rfl, hkind⟩ := List.map_eq_singleton_iff.mp hone
    rw [heq t List.mem_cons_self hkind]
    exact Or.inr rfl

/-- Of tokens that are all of one kind there is at most one where each kind comes once. -/
theorem eq_singleton_of_kind_eq {kinds : List String} (hkinds : kinds.Nodup)
    (h : (toks.map kind).Sublist kinds) (hsame : ∀ a ∈ toks, ∀ b ∈ toks, a.kind = b.kind) :
    toks = [] ∨ ∃ tok, toks = [tok] := by
  have hnodup := h.nodup hkinds
  match toks with
  | [] => exact Or.inl rfl
  | [tok] => exact Or.inr ⟨tok, rfl⟩
  | a :: b :: toks =>
    have heq := hsame a (by simp) b (by simp)
    simp [heq] at hnodup

end Kinds

end Token

namespace Matcher

theorem kinds_filterMap_sublist {entries : List (String × Matcher)}
    {f : String × Matcher → Option Match}
    (h : ∀ entry ∈ entries, ∀ m, f entry = some m → m.token.kind = entry.1) :
    ((entries.filterMap f).map fun m => m.token.kind).Sublist (entries.map Prod.fst) := by
  induction entries with
  | nil => exact List.nil_sublist _
  | cons entry entries ih =>
    obtain ⟨hentry, hrest⟩ := List.forall_mem_cons.mp h
    cases hm : f entry with
    | none =>
      rw [List.filterMap_cons_none hm]
      exact (ih hrest).cons entry.1
    | some m =>
      rw [List.filterMap_cons_some hm, List.map_cons, List.map_cons, hentry m hm]
      exact (ih hrest).cons_cons entry.1

/-- The matches of a text come in the order of the matchers, at most one of each kind. -/
theorem kinds_allMatches_sublist {table : SymbolTable} (ht : table.Obtained) (text : List Char) :
    ((allMatches table text).map fun m => m.token.kind).Sublist (all.map Prod.fst) :=
  kinds_filterMap_sublist fun _ hentry _ hm => ((eq_some_iff ht hentry).mp hm).1

end Matcher

section Spelled

variable {table : SymbolTable} {t : List Char} {tok : Token}

theorem Spells.eq_identifier (h : Spells table t tok) (hkind : tok.kind = "identifier") :
    tok = .identifier (String.ofList t) := by
  cases h with
  | identifier => rfl
  | _ => simp [Token.kind] at hkind

theorem Spells.eq_keyword (ht : table.Obtained) (h : Spells table t tok)
    (hkind : tok.kind = "keyword") : tok = .keyword (Text.lower (String.ofList t)) := by
  cases h with
  | keyword _ hk => rw [(ht.isCanonical.keyword?_eq_some_iff.mp hk).1]
  | _ => simp [Token.kind] at hkind

theorem Spells.eq_symbol (h : Spells table t tok) (hkind : tok.kind = "symbol") :
    tok = .symbol (String.ofList t) := by
  cases h with
  | symbol => rw [String.ofList_toList]
  | _ => simp [Token.kind] at hkind

end Spelled

namespace Lexeme.IsLongest

variable {table : SymbolTable} {before taken after : List Char} {l : Lexeme} {tok : Token}

/-- The candidates are the tokens that the text spells and that end where it does. -/
theorem mem_candidates_iff (ht : table.Obtained) (h : l.IsLongest table before taken after) :
    tok ∈ l.candidates ↔ Spells table taken tok ∧ Ends table taken after tok := by
  rw [h.candidates_eq, h.span_eq, Span.behind_length, List.mem_map]
  constructor
  · intro ⟨⟨t, tok'⟩, hm, htok⟩
    obtain ⟨hall, hlength⟩ := List.mem_filter.mp hm
    have hsize : Text.byteSize t = Text.byteSize taken := of_decide_eq_true hlength
    rw [← htok]
    exact ((reads_append_iff hsize).mp ((Matcher.mem_allMatches_iff ht).mp hall)).2
  · intro hspells
    have hall : ⟨taken, tok⟩ ∈ Matcher.allMatches table (taken ++ after) :=
      (Matcher.mem_allMatches_iff ht).mpr ⟨after, rfl, hspells⟩
    exact ⟨⟨taken, tok⟩, List.mem_filter.mpr ⟨hall, decide_eq_true rfl⟩, rfl⟩

theorem kinds_sublist (ht : table.Obtained) (h : l.IsLongest table before taken after) :
    (l.candidates.map Token.kind).Sublist (Matcher.all.map Prod.fst) := by
  rw [h.candidates_eq, List.map_map]
  exact (List.filter_sublist.map _).trans (Matcher.kinds_allMatches_sublist ht (taken ++ after))

/-- A keyword is a word and ends where the word does. -/
theorem identifier_mem (ht : table.Obtained) (h : l.IsLongest table before taken after) {k : String}
    (hk : .keyword k ∈ l.candidates) : .identifier (String.ofList taken) ∈ l.candidates := by
  obtain ⟨hspells, hends⟩ := (h.mem_candidates_iff ht).mp hk
  cases hspells with
  | keyword hword _ => exact (h.mem_candidates_iff ht).mpr ⟨.identifier hword, hends⟩

theorem identifier_not_mem (ht : table.Obtained) (h : l.IsLongest table before taken after)
    (htok : tok ∈ l.candidates) (hliteral : tok.IsLiteral) (name : String) :
    .identifier name ∉ l.candidates := by
  intro hname
  have hspells := ((h.mem_candidates_iff ht).mp htok).1
  cases ((h.mem_candidates_iff ht).mp hname).1 with
  | identifier hword =>
    rw [hspells.isWord_eq_false ht hliteral] at hword
    cases hword

/-- The kinds divide the candidates into a literal, a word, a keyword and a symbol, each of which
there may be. -/
theorem exists_parts (ht : table.Obtained) (h : l.IsLongest table before taken after) :
    ∃ literals words keywords symbols,
      l.candidates = literals ++ (words ++ (keywords ++ symbols)) ∧
      (literals = [] ∨ ∃ tok : Token, tok.IsLiteral ∧ literals = [tok]) ∧
      (words = [] ∨ words = [.identifier (String.ofList taken)]) ∧
      (keywords = [] ∨ keywords = [.keyword (Text.lower (String.ofList taken))]) ∧
      (symbols = [] ∨ symbols = [.symbol (String.ofList taken)]) := by
  have hspells : ∀ tok ∈ l.candidates, Spells table taken tok :=
    fun _ htok => ((h.mem_candidates_iff ht).mp htok).1
  have hkinds : (l.candidates.map Token.kind).Sublist
      (Token.literalKinds ++ (["identifier"] ++ (["keyword"] ++ ["symbol"]))) := h.kinds_sublist ht
  obtain ⟨literals, others, hcandidates, hliterals, hothers⟩ := Token.exists_append_of_kinds hkinds
  obtain ⟨words, others, rfl, hwords, hothers⟩ := Token.exists_append_of_kinds hothers
  obtain ⟨keywords, symbols, rfl, hkeywords, hsymbols⟩ := Token.exists_append_of_kinds hothers
  rw [hcandidates] at hspells
  refine ⟨literals, words, keywords, symbols, hcandidates, ?_, ?_, ?_, ?_⟩
  · have hliteral : ∀ tok ∈ literals, tok.IsLiteral := fun tok htok =>
      Token.isLiteral_of_kind_mem (hliterals.subset (List.mem_map_of_mem htok))
    have hsame : ∀ a ∈ literals, ∀ b ∈ literals, a.kind = b.kind := by
      intro a ha b hb
      rw [← (hspells a (by simp [ha])).literalKind_eq (hliteral a ha),
        (hspells b (by simp [hb])).literalKind_eq (hliteral b hb)]
    rcases Token.eq_singleton_of_kind_eq (by decide) hliterals hsame with hnone | ⟨tok, rfl⟩
    · exact Or.inl hnone
    · exact Or.inr ⟨tok, hliteral tok List.mem_cons_self, rfl⟩
  · exact Token.eq_singleton_of_kind hwords fun tok htok =>
      (hspells tok (by simp [htok])).eq_identifier
  · exact Token.eq_singleton_of_kind hkeywords fun tok htok =>
      (hspells tok (by simp [htok])).eq_keyword ht
  · exact Token.eq_singleton_of_kind hsymbols fun tok htok =>
      (hspells tok (by simp [htok])).eq_symbol

theorem choice (ht : table.Obtained) (h : l.IsLongest table before taken after) :
    Choice (String.ofList taken) l.candidates := by
  obtain ⟨literals, words, keywords, symbols, hcandidates, hliterals, hwords, hkeywords,
    hsymbols⟩ := h.exists_parts ht
  have hne := h.candidates_ne_nil
  have hword : ∀ k, .keyword k ∈ l.candidates →
      .identifier (String.ofList taken) ∈ l.candidates := fun _ => h.identifier_mem ht
  have hnoWord : ∀ tok ∈ l.candidates, tok.IsLiteral → ∀ name, .identifier name ∉ l.candidates :=
    fun _ => h.identifier_not_mem ht
  rw [hcandidates] at hne hword hnoWord ⊢
  rcases hliterals with rfl | ⟨tok, hliteral, rfl⟩
  · rcases hwords with rfl | rfl
    · rcases hkeywords with rfl | rfl
      · rcases hsymbols with rfl | rfl
        · exact absurd rfl hne
        · exact .symbol
      · refine absurd (hword _ List.mem_cons_self) ?_
        rcases hsymbols with rfl | rfl <;> simp
    · rcases hkeywords with rfl | rfl <;> rcases hsymbols with rfl | rfl
      · exact .word
      · exact .wordOrSymbol
      · exact .wordOrKeyword
      · exact .wordOrKeywordOrSymbol
  · have hnone := hnoWord tok List.mem_cons_self hliteral (String.ofList taken)
    rcases hwords with rfl | rfl
    · rcases hkeywords with rfl | rfl
      · rcases hsymbols with rfl | rfl
        · exact .literal hliteral
        · exact .literalOrSymbol hliteral
      · exact absurd (hword _ (.tail _ List.mem_cons_self)) hnone
    · exact absurd (.tail _ List.mem_cons_self) hnone

end Lexeme.IsLongest

/-- The candidates of every lexeme are a literal, a word, which may be a keyword, or neither, and
a symbol may come with them. -/
theorem candidates_choice {table : SymbolTable} (ht : table.Obtained) (text : String) :
    ∀ l ∈ (tokenize table text).1,
      Choice (String.ofList (l.span.text text.toList)) l.candidates := by
  intro l hl
  obtain ⟨-, before, after, hlongest⟩ := tokenize_standsIn ht hl
  exact hlongest.choice ht

/-- The operator is a word and a keyword besides, and digits that the table has are an integer and
a symbol. -/
theorem candidates_choice_tied :
    SymbolTable.Obtained ⟨["in"], ["12", "In", "<"]⟩ ∧
      tokenize ⟨["in"], ["12", "In", "<"]⟩ "In 12<" =
        ([⟨⟨⟨0, 1, 1⟩, ⟨2, 1, 3⟩⟩, [.identifier "In", .keyword "in", .symbol "In"]⟩,
          ⟨⟨⟨3, 1, 4⟩, ⟨5, 1, 6⟩⟩, [.int 12, .symbol "12"]⟩,
          ⟨⟨⟨5, 1, 6⟩, ⟨6, 1, 7⟩⟩, [.symbol "<"]⟩], []) ∧
      Choice "In" [.identifier "In", .keyword "in", .symbol "In"] ∧
      Choice "12" [.int 12, .symbol "12"] ∧ Choice "<" [.symbol "<"] := by
  have hentries : SymbolTable.ofEntries ["IN"] ["<", "12", "In"] =
      .ok ⟨["in"], ["12", "In", "<"]⟩ := by
    decide +kernel
  have ht : SymbolTable.Obtained ⟨["in"], ["12", "In", "<"]⟩ := .entries hentries
  have htokens : tokenize ⟨["in"], ["12", "In", "<"]⟩ "In 12<" =
      ([⟨⟨⟨0, 1, 1⟩, ⟨2, 1, 3⟩⟩, [.identifier "In", .keyword "in", .symbol "In"]⟩,
        ⟨⟨⟨3, 1, 4⟩, ⟨5, 1, 6⟩⟩, [.int 12, .symbol "12"]⟩,
        ⟨⟨⟨5, 1, 6⟩, ⟨6, 1, 7⟩⟩, [.symbol "<"]⟩], []) := by
    decide +kernel
  have h := candidates_choice ht "In 12<"
  rw [htokens] at h
  obtain ⟨hword, h⟩ := List.forall_mem_cons.mp h
  obtain ⟨hnumber, h⟩ := List.forall_mem_cons.mp h
  obtain ⟨hsymbol, -⟩ := List.forall_mem_cons.mp h
  exact ⟨ht, htokens, hword, hnumber, hsymbol⟩

end QueryExpr
