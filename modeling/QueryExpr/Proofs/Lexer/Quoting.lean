/-
Texts in quotes.

A text is put in quotes by doubling the quotes in it, and the matcher takes back exactly what was
put in quotes, unless one more quote follows.  The same is found on bytes, where the quotes are
paired first and the value is made from the pairs afterwards.
-/
import QueryExpr.Proofs.Checked.Matching

namespace QueryExpr

open Text

section Quoting

variable {table : SymbolTable} {text rest : List Char}

/-- The text starts with `s` in quotes, and with `rest` behind it no quote follows. -/
def StartsInQuotes (text : List Char) (s : String) (rest : List Char) : Prop :=
  text = inQuotes s.toList ++ rest ∧ rest.head? ≠ some '\''

theorem stopsAt_quote_iff : StopsAt (· == '\'') rest ↔ rest.head? ≠ some '\'' := by
  cases rest with
  | nil => simp
  | cons c rest => simp

theorem Matcher.string_eq_some_inQuotes_iff {m : Match} :
    string table text = some m ↔
      ∃ s rest, StartsInQuotes text s rest ∧ m = ⟨inQuotes s.toList, .str s⟩ := by
  obtain ⟨t, tok⟩ := m
  rw [string_eq_some_iff]
  constructor
  · rintro ⟨hkind, rest, htext, hspells, hends⟩
    cases hspells with
    | str value =>
      refine ⟨String.ofList value, rest, ⟨?_, stopsAt_quote_iff.mp hends⟩, ?_⟩
      · rw [String.toList_ofList, htext]
      · rw [String.toList_ofList]
    | _ => simp [Token.kind] at hkind
  · rintro ⟨s, rest, ⟨htext, hends⟩, hmatch⟩
    obtain ⟨rfl, rfl⟩ := Match.mk.inj hmatch
    have hspells : Spells table _ _ := .str s.toList
    rw [String.ofList_toList] at hspells
    exact ⟨rfl, rest, htext, hspells, stopsAt_quote_iff.mpr hends⟩

theorem StartsInQuotes.encoded_take {s : String} (h : StartsInQuotes text s rest) :
    (encoded text).take (byteSize (inQuotes s.toList)) = encoded (inQuotes s.toList) := by
  rw [h.1, encoded_append, ← length_encoded, List.take_left]

theorem StartsInQuotes.encoded_getElem? {s : String} (h : StartsInQuotes text s rest) :
    (encoded text)[byteSize (inQuotes s.toList)]? ≠ some (byte '\'') := by
  have hbehind : Checked.IsRest text (byteSize (inQuotes s.toList)) rest :=
    Checked.isRest_of_append h.1.symm
  rw [hbehind.getElem?_encoded]
  exact (head?_encoded_eq_some (by decide)).not.mpr h.2

end Quoting

/-- What is put in quotes is taken back from the front of a text, with as many bytes as it has in
quotes.  What is taken is in quotes on just these bytes, with no quote behind them, and nothing is
taken from other texts.  Pairing quotes byte by byte and undoubling them afterwards gives the
same. -/
theorem string_takes_inQuotes (table : SymbolTable) :
    (∀ (s : String) (rest : List Char), rest.head? ≠ some '\'' →
      (Matcher.string table (inQuotes s.toList ++ rest)).map Match.taken =
        some ⟨byteSize (inQuotes s.toList), .str s⟩) ∧
    (∀ text n tok, (Matcher.string table text).map Match.taken = some ⟨n, tok⟩ →
      ∃ s : String, tok = .str s ∧ (encoded text).take n = encoded (inQuotes s.toList) ∧
        (encoded text)[n]? ≠ some (byte '\'')) ∧
    (∀ text, Matcher.string table text = none ↔ ¬ ∃ s rest, StartsInQuotes text s rest) ∧
    ∀ text, Checked.string table text = .ok ((Matcher.string table text).map Match.taken) := by
  refine ⟨?_, ?_, ?_, Checked.string_eq table⟩
  · intro s rest hrest
    have hmatch : Matcher.string table _ = _ :=
      Matcher.string_eq_some_inQuotes_iff.mpr ⟨s, rest, ⟨rfl, hrest⟩, rfl⟩
    rw [hmatch]
    rfl
  · intro text n tok h
    obtain ⟨m, hm, htaken⟩ := Option.map_eq_some_iff.mp h
    obtain ⟨s, rest, hstarts, rfl⟩ := Matcher.string_eq_some_inQuotes_iff.mp hm
    obtain ⟨rfl, rfl⟩ := Checked.Taken.mk.inj htaken
    exact ⟨s, rfl, hstarts.encoded_take, hstarts.encoded_getElem?⟩
  · intro text
    rw [Option.eq_none_iff_forall_ne_some, ← not_exists, not_iff_not]
    constructor
    · intro ⟨m, hm⟩
      obtain ⟨s, rest, hstarts, -⟩ := Matcher.string_eq_some_inQuotes_iff.mp hm
      exact ⟨s, rest, hstarts⟩
    · intro ⟨s, rest, hstarts⟩
      exact ⟨_, Matcher.string_eq_some_inQuotes_iff.mpr ⟨s, rest, hstarts, rfl⟩⟩

/-- Quotes at both ends of the text and two in a row within it are doubled, with a letter of two
bytes between them. -/
theorem string_takes_inQuotes_doubled :
    inQuotes "'é''".toList = "'''é'''''".toList ∧
      (Matcher.string SymbolTable.default "'''é''''' ''".toList).map Match.taken =
        some ⟨10, .str "'é''"⟩ ∧
      (encoded "'''é''''' ''".toList).take 10 = encoded "'''é'''''".toList ∧
      Checked.string SymbolTable.default "'''é''''' ''".toList = .ok (some ⟨10, .str "'é''"⟩) ∧
      Matcher.string SymbolTable.default "'it''".toList = none ∧
      ¬ ∃ s rest, StartsInQuotes "'it''".toList s rest := by
  obtain ⟨htakes, hinQuotes, hnone, hbytes⟩ := string_takes_inQuotes SymbolTable.default
  have hquoted : inQuotes "'é''".toList = "'''é'''''".toList := by decide +kernel
  have htext : "'''é'''''".toList ++ " ''".toList = "'''é''''' ''".toList := by decide +kernel
  have hsize : byteSize "'''é'''''".toList = 10 := by decide +kernel
  have htaken := htakes "'é''" " ''".toList (by decide)
  rw [hquoted, htext, hsize] at htaken
  obtain ⟨s, hs, hfront, -⟩ := hinQuotes _ _ _ htaken
  obtain rfl := Token.str.inj hs
  rw [hquoted] at hfront
  have hopen : Matcher.string SymbolTable.default "'it''".toList = none := by decide +kernel
  exact ⟨hquoted, htaken, hfront, (hbytes _).trans (congrArg Except.ok htaken), hopen,
    (hnone _).mp hopen⟩

end QueryExpr
