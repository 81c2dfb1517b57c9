/-
What one scan finds.

A finding is described by the source around it: the text read before, the text taken
and the text left after.  A lexeme takes the longest match at its place and has every
token of that length as a candidate.  Where nothing matches, everything up to the next
blank is taken.  `scan` passes over blanks and then finds one of the two.
-/
import QueryExpr.Lexer
import QueryExpr.Proofs.Lexer.Matching
import QueryExpr.Proofs.Lexer.Reading

namespace QueryExpr

theorem le_foldl_max (ms : List Match) (n : Nat) :
    n ≤ ms.foldl (fun n m => max n m.length) n ∧
      ∀ m ∈ ms, m.length ≤ ms.foldl (fun n m => max n m.length) n := by
  induction ms generalizing n with
  | nil => exact ⟨Nat.le_refl n, fun m hm => absurd hm List.not_mem_nil⟩
  | cons m rest ih =>
    obtain ⟨hstart, hrest⟩ := ih (max n m.length)
    rw [List.foldl_cons]
    refine ⟨by omega, fun m' hm' => ?_⟩
    rcases List.mem_cons.mp hm' with rfl | hm'
    · omega
    · exact hrest m' hm'

theorem foldl_max_reached (ms : List Match) (n : Nat) :
    ms.foldl (fun n m => max n m.length) n = n ∨
      ∃ m ∈ ms, m.length = ms.foldl (fun n m => max n m.length) n := by
  induction ms generalizing n with
  | nil => exact Or.inl rfl
  | cons m rest ih =>
    rw [List.foldl_cons]
    rcases ih (max n m.length) with h | ⟨m', hm', h⟩
    · rw [h]
      by_cases hmax : m.length ≤ n
      · exact Or.inl (Nat.max_eq_left hmax)
      · exact Or.inr ⟨m, List.mem_cons_self, by omega⟩
    · exact Or.inr ⟨m', List.mem_cons_of_mem m hm', h⟩

theorem length_le_longest {ms : List Match} {m : Match} (h : m ∈ ms) : m.length ≤ longest ms :=
  (le_foldl_max ms 0).2 m h

theorem exists_length_eq_longest {ms : List Match} (h : ms ≠ []) :
    ∃ m ∈ ms, m.length = longest ms := by
  rcases foldl_max_reached ms 0 with hzero | hreached
  · obtain ⟨m, hm⟩ := List.exists_mem_of_ne_nil ms h
    have hle := length_le_longest hm
    have hlongest : longest ms = 0 := hzero
    exact ⟨m, hm, by omega⟩
  · exact hreached

section Best

variable {table : SymbolTable} {text : List Char}

theorem mem_bestMatches {m : Match} :
    m ∈ bestMatches table text ↔
      m ∈ Matcher.allMatches table text ∧
        ∀ n ∈ Matcher.allMatches table text, n.length ≤ m.length := by
  unfold bestMatches
  dsimp only
  rw [List.mem_filter, decide_eq_true_eq]
  constructor
  · rintro ⟨hm, hlen⟩
    exact ⟨hm, fun n hn => hlen ▸ length_le_longest hn⟩
  · rintro ⟨hm, hmax⟩
    obtain ⟨n, hn, hlen⟩ := exists_length_eq_longest (List.ne_nil_of_mem hm)
    have hle := length_le_longest hm
    have hge := hmax n hn
    exact ⟨hm, by omega⟩

theorem longest_of_mem_bestMatches {m : Match} (h : m ∈ bestMatches table text) :
    longest (Matcher.allMatches table text) = m.length := by
  obtain ⟨hm, hmax⟩ := mem_bestMatches.mp h
  obtain ⟨n, hn, hlen⟩ := exists_length_eq_longest (List.ne_nil_of_mem hm)
  exact Nat.le_antisymm (hlen ▸ hmax n hn) (length_le_longest hm)

theorem bestMatches_eq_nil : bestMatches table text = [] ↔ Matcher.allMatches table text = [] := by
  constructor
  · intro h
    apply Classical.byContradiction
    intro hne
    obtain ⟨m, hm, hlen⟩ := exists_length_eq_longest hne
    have hbest : m ∈ bestMatches table text :=
      mem_bestMatches.mpr ⟨hm, fun n hn => hlen ▸ length_le_longest hn⟩
    rw [h] at hbest
    exact absurd hbest List.not_mem_nil
  · intro h
    rw [bestMatches, h]
    rfl

end Best

/-- The lexeme stands for `taken`, the longest match at the front of the unread text. -/
structure Lexeme.IsLongest (table : SymbolTable) (before taken after : List Char) (l : Lexeme) :
    Prop where
  span_eq : l.span = Span.behind before taken
  reached : ∃ m ∈ Matcher.allMatches table (taken ++ after), m.length = l.span.length
  greatest : ∀ m ∈ Matcher.allMatches table (taken ++ after), m.length ≤ l.span.length
  candidates_eq : l.candidates =
    ((Matcher.allMatches table (taken ++ after)).filter
      fun m => m.length = l.span.length).map Match.token

/-- Nothing matches at the front of the unread text, and `taken` is what stands before the
next blank. -/
structure Unrecognized.IsUnmatched (table : SymbolTable) (before taken after : List Char)
    (u : Unrecognized) : Prop where
  span_eq : u.span = Span.behind before taken
  text_eq : u.text = String.ofList taken
  unmatched : Matcher.allMatches table (taken ++ after) = []
  unbroken : ∀ x ∈ taken, Text.isBlank x = false
  ended : ∀ x ∈ after.head?, Text.isBlank x = true

theorem Lexeme.IsLongest.candidates_ne_nil {table : SymbolTable} {before taken after : List Char}
    {l : Lexeme} (h : l.IsLongest table before taken after) : l.candidates ≠ [] := by
  obtain ⟨m, hm, hlength⟩ := h.reached
  have hmem : m.token ∈ l.candidates := by
    rw [h.candidates_eq]
    exact List.mem_map_of_mem (List.mem_filter.mpr ⟨hm, decide_eq_true hlength⟩)
  exact List.ne_nil_of_mem hmem

theorem Lexeme.IsLongest.longest_eq {table : SymbolTable} {before taken after : List Char}
    {l : Lexeme} (h : l.IsLongest table before taken after) :
    longest (Matcher.allMatches table (taken ++ after)) = Text.byteSize taken := by
  obtain ⟨m, hm, hlength⟩ := h.reached
  obtain ⟨n, hn, hlongest⟩ := exists_length_eq_longest (List.ne_nil_of_mem hm)
  have hle := length_le_longest hm
  have hge := h.greatest n hn
  rw [h.span_eq, Span.behind_length] at hlength hge
  omega

def Finding.IsRight (table : SymbolTable) (before taken after : List Char) : Finding → Prop
  | .lexeme l => l.IsLongest table before taken after
  | .unrecognized u => u.IsUnmatched table before taken after

namespace Finding

def span : Finding → Span
  | lexeme l => l.span
  | unrecognized u => u.span

theorem IsRight.span_eq {table : SymbolTable} {before taken after : List Char} {f : Finding}
    (h : f.IsRight table before taken after) : f.span = Span.behind before taken := by
  cases f with
  | lexeme l => exact Lexeme.IsLongest.span_eq h
  | unrecognized u => exact Unrecognized.IsUnmatched.span_eq h

variable {table : SymbolTable} {start : Cursor} {read : List Char}

theorem isRight_unrecognized (hstart : start.HasRead read)
    (hnone : Matcher.allMatches table start.rest = []) :
    (unrecognized ⟨String.ofList (start.textTo (start.skipWhile fun x => !Text.isBlank x)),
      start.spanTo (start.skipWhile fun x => !Text.isBlank x)⟩).IsRight table read
        (start.rest.takeWhile fun x => !Text.isBlank x)
        (start.rest.dropWhile fun x => !Text.isBlank x) := by
  have hstop := hstart.skipWhile fun x => !Text.isBlank x
  refine ⟨hstart.spanTo hstop, ?_, ?_, ?_, ?_⟩
  · show String.ofList _ = _
    rw [hstart.textTo hstop (Cursor.advanceN_text _ start)]
  · rw [List.takeWhile_append_dropWhile]
    exact hnone
  · intro x hx
    simpa using List.mem_takeWhile_imp hx
  · intro x hx
    simpa using Text.stopsAt_dropWhile _ start.rest x hx

/-- The best matches are the candidates of a lexeme that is as long as each of them. -/
theorem isRight_lexeme {best : Match} {after : List Char} (hstart : start.HasRead read)
    (hbest : best ∈ bestMatches table start.rest) (hafter : start.rest = best.text ++ after) :
    (lexeme ⟨start.spanTo (start.advanceN best.text.length),
      (bestMatches table start.rest).map Match.token⟩).IsRight table read best.text after := by
  obtain ⟨hall, hmax⟩ := mem_bestMatches.mp hbest
  have hstop := hstart.advanceN best.text.length
  have htake : start.rest.take best.text.length = best.text := by
    rw [hafter, List.take_left]
  rw [htake] at hstop
  have hlongest := longest_of_mem_bestMatches hbest
  have hspan := hstart.spanTo hstop
  have hlength : (start.spanTo (start.advanceN best.text.length)).length = best.length := by
    rw [hspan, Span.behind_length, Match.length]
  refine ⟨hspan, ?_, ?_, ?_⟩
  · exact ⟨best, hafter ▸ hall, hlength.symm⟩
  · intro m hm
    show m.length ≤ Span.length _
    rw [hlength]
    exact hmax m (hafter ▸ hm)
  · show (bestMatches table start.rest).map Match.token = _
    rw [hlength, ← hafter, ← hlongest]
    rfl

end Finding

/-- A finding takes something, and the cursor behind it has read that. -/
theorem findAt_isRight {table : SymbolTable} {start stop : Cursor} {read : List Char} {f : Finding}
    (ht : table.Obtained) (hstart : start.HasRead read) (hrest : start.rest ≠ [])
    (hblank : ∀ x ∈ start.rest.head?, Text.isBlank x = false)
    (h : findAt table start = (f, stop)) :
    ∃ taken, taken ≠ [] ∧ start.rest = taken ++ stop.rest ∧ stop.HasRead (read ++ taken) ∧
      f.IsRight table read taken stop.rest := by
  unfold findAt at h
  split at h
  · rename_i hbest
    obtain ⟨rfl, rfl⟩ := Prod.mk.inj h
    have hnone := bestMatches_eq_nil.mp hbest
    rw [Cursor.skipWhile_rest]
    refine ⟨start.rest.takeWhile fun x => !Text.isBlank x, ?_,
      List.takeWhile_append_dropWhile.symm, hstart.skipWhile _,
      Finding.isRight_unrecognized hstart hnone⟩
    cases hx : start.rest with
    | nil => exact absurd hx hrest
    | cons x rest =>
      have hxblank := hblank x (by rw [hx]; rfl)
      rw [List.takeWhile_cons, if_pos (by rw [hxblank]; rfl)]
      exact List.cons_ne_nil x _
  · rename_i best others hbest
    obtain ⟨rfl, rfl⟩ := Prod.mk.inj h
    have hmem : best ∈ bestMatches table start.rest := hbest ▸ List.mem_cons_self
    have hfront := Matcher.isFront_of_mem_allMatches ht (mem_bestMatches.mp hmem).1
    obtain ⟨after, hafter⟩ := hfront.isPrefix
    have hdrop : (start.advanceN best.text.length).rest = after := by
      rw [Cursor.advanceN_rest, ← hafter, List.drop_left]
    have hstop := hstart.advanceN best.text.length
    rw [← hafter, List.take_left] at hstop
    rw [hdrop, ← hbest]
    exact ⟨best.text, hfront.nonempty, hafter.symm, hstop,
      Finding.isRight_lexeme hstart hmem hafter.symm⟩

theorem scan_eq_none {table : SymbolTable} {c : Cursor} :
    scan table c = none ↔ ∀ x ∈ c.rest, Text.isBlank x = true := by
  unfold scan
  dsimp only
  rw [Cursor.isEnd, Cursor.skipBlanks, Cursor.skipWhile_rest, ← List.dropWhile_eq_nil_iff]
  simp

/-- A scan passes over blanks to a finding. -/
theorem scan_isRight {table : SymbolTable} {c d : Cursor} {read : List Char} {f : Finding}
    (ht : table.Obtained) (hc : c.HasRead read) (h : scan table c = some (f, d)) :
    ∃ blanks taken, (∀ x ∈ blanks, Text.isBlank x = true) ∧ taken ≠ [] ∧
      c.rest = blanks ++ (taken ++ d.rest) ∧ d.HasRead (read ++ blanks ++ taken) ∧
      f.IsRight table (read ++ blanks) taken d.rest := by
  unfold scan at h
  dsimp only at h
  split at h
  · cases h
  · rename_i hend
    have hstart := hc.skipWhile Text.isBlank
    have hrest : c.skipBlanks.rest = c.rest.dropWhile Text.isBlank :=
      Cursor.skipWhile_rest Text.isBlank c
    obtain ⟨taken, hne, htaken, hd, hf⟩ := findAt_isRight ht hstart
      (by simpa [Cursor.isEnd, Cursor.skipBlanks] using hend)
      (fun x hx => Text.stopsAt_dropWhile _ c.rest x (hrest ▸ hx)) (Option.some.inj h)
    refine ⟨c.rest.takeWhile Text.isBlank, taken, fun x hx => List.mem_takeWhile_imp hx, hne, ?_,
      hd, hf⟩
    rw [← htaken]
    show c.rest = _ ++ c.skipBlanks.rest
    rw [hrest, List.takeWhile_append_dropWhile]

end QueryExpr
