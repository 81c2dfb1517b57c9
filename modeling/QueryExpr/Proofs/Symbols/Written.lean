/-
Tables are read as they were written.

The written form lists the entries of a table in its order.  Reading checks and arranges them
again, which leaves a table that is in order as it is.
-/
import QueryExpr.Proofs.Json.Written
import QueryExpr.Proofs.Symbols.Order

namespace QueryExpr
namespace SymbolTable

open Json

/-- Making a table of the entries of a table gives the same table. -/
theorem IsCanonical.ofEntries_self {t : SymbolTable} (h : t.IsCanonical) :
    ofEntries t.keywords t.symbols = .ok t := by
  have hmade : ∃ t', ofEntries t.keywords t.symbols = .ok t' := by
    simp only [ofEntries_eq_ok_iff, exists_and_left, exists_eq, and_true, Text.isWord_iff,
      isSymbol_iff]
    refine ⟨fun k hk => ?_, fun s hs => ⟨h.symbols_ne s hs, h.symbols_blankless s hs⟩⟩
    rw [h.keywords_lower k hk]
    exact h.keywords_wordShaped k hk
  obtain ⟨t', ht'⟩ := hmade
  have hsame : t' = t := by
    refine (isCanonical_of_ofEntries ht').eq_of_mem_iff h ?_ fun s => mem_symbols_iff ht'
    intro w
    rw [mem_keywords_iff ht']
    constructor
    · rintro ⟨k, hk, rfl⟩
      rwa [h.keywords_lower k hk]
    · exact fun hw => ⟨w, hw, h.keywords_lower w hw⟩
  rw [ht', hsame]

/-- The member of a field with a list of entries, as it is written. -/
def memberText (field : String) (ss : List String) : List Char :=
  writeString field ++ ':' :: write (.array (ss.map .string))

theorem write_toJson (t : SymbolTable) :
    write t.toJson = '\x7b' :: (memberText "keywords" t.keywords ++
      ',' :: (memberText "symbols" t.symbols ++ ['\x7d'])) := by
  show '\x7b' :: (commaSeparated [memberText "keywords" t.keywords,
    memberText "symbols" t.symbols] ++ ['\x7d']) = _
  rw [commaSeparated_cons]
  simp

section Members

variable {steps : Nat} {ss : List String}

theorem stringBody_memberText {field : String} (h : (memberText field ss).length ≤ steps)
    (rest : List Char) :
    ∃ body, memberText field ss ++ rest = '"' :: body ∧
      stringBody steps body =
        .ok (field.toList, ':' :: (write (.array (ss.map .string)) ++ rest)) := by
  have hsize := length_le_writeString field
  rw [memberText, List.length_append] at h
  rw [memberText, List.append_assoc, List.cons_append]
  exact stringBody_writeString (by omega) _

theorem stringList_memberText {field : String} (h : (memberText field ss).length ≤ steps)
    (rest : List Char) :
    (colon (':' :: (write (.array (ss.map .string)) ++ rest)) >>= stringList steps) =
      .ok (ss, rest) := by
  rw [memberText, List.length_append, List.length_cons] at h
  exact stringList_write (by omega) rest

theorem members_keywords (h : (memberText "keywords" ss).length ≤ steps) (rest : List Char) :
    members (steps + 1) true ⟨none, none⟩ (memberText "keywords" ss ++ rest) =
      members steps false ⟨some ss, none⟩ rest := by
  obtain ⟨body, hbody, hkey⟩ := stringBody_memberText h rest
  have hlist := stringList_memberText h rest
  rw [hbody]
  show (stringBody steps body >>= _) = _
  rw [hkey, Outcome.ok_bind]
  dsimp only
  rw [if_pos rfl, if_neg nofun, ← bind_assoc, hlist]
  rfl

theorem members_symbols {keywords : List String} (h : (memberText "symbols" ss).length ≤ steps)
    (rest : List Char) :
    members (steps + 1) false ⟨some keywords, none⟩ (',' :: (memberText "symbols" ss ++ rest)) =
      members steps false ⟨some keywords, some ss⟩ rest := by
  obtain ⟨body, hbody, hkey⟩ := stringBody_memberText h rest
  have hlist := stringList_memberText h rest
  rw [hbody]
  show (stringBody steps body >>= _) = _
  rw [hkey, Outcome.ok_bind]
  dsimp only
  rw [if_neg (by decide), if_pos rfl, if_neg nofun, ← bind_assoc, hlist]
  rfl

end Members

theorem entries_write_toJson {steps : Nat} {t : SymbolTable}
    (h : (write t.toJson).length ≤ steps) :
    entries steps (write t.toJson) = .ok (⟨some t.keywords, some t.symbols⟩, []) := by
  rw [write_toJson] at h ⊢
  simp only [List.length_cons, List.length_append, List.length_nil] at h
  obtain ⟨steps, rfl⟩ : ∃ n, steps = n + 3 := ⟨steps - 3, by omega⟩
  show members (steps + 3) true ⟨none, none⟩ (memberText "keywords" t.keywords ++ _) = _
  rw [members_keywords (by omega), members_symbols (by omega)]
  rfl

/-- Reading the written form of a table makes a table of its entries. -/
theorem read_compact (t : SymbolTable) :
    read t.toJson.compact = (ofEntries t.keywords t.symbols).mapError .invalid := by
  have hsteps : (write t.toJson).length ≤ 2 * (write t.toJson).length + 1 := by omega
  have hentries := entries_write_toJson hsteps
  unfold read
  rw [compact, String.toList_ofList]
  dsimp only
  rw [hentries]
  show ((ofEntries t.keywords t.symbols).mapError _ >>= _) = _
  cases ofEntries t.keywords t.symbols <;> rfl

/-- A table is what reading its written form gives, and what its entries make. -/
theorem read_toJson (t : SymbolTable) (h : t.Obtained) :
    read t.toJson.compact = .ok t ∧ ofEntries t.keywords t.symbols = .ok t := by
  have hself := h.isCanonical.ofEntries_self
  rw [read_compact, hself]
  exact ⟨rfl, rfl⟩

/-- Quotes, backslashes and control characters are escaped, and a character of four bytes is
not. -/
theorem read_toJson_escaped :
    (⟨["and"], ["𝄞", "\"\\\x01"]⟩ : SymbolTable).Obtained ∧
      read "\x7b\"keywords\":[\"and\"],\"symbols\":[\"𝄞\",\"\\\"\\\\\\u0001\"]\x7d" =
        .ok ⟨["and"], ["𝄞", "\"\\\x01"]⟩ := by
  have hentries : ofEntries ["AND"] ["\"\\\x01", "𝄞"] = .ok ⟨["and"], ["𝄞", "\"\\\x01"]⟩ := by
    decide +kernel
  have hobtained := Obtained.entries hentries
  have hwritten : (⟨["and"], ["𝄞", "\"\\\x01"]⟩ : SymbolTable).toJson.compact =
      "\x7b\"keywords\":[\"and\"],\"symbols\":[\"𝄞\",\"\\\"\\\\\\u0001\"]\x7d" := by
    decide +kernel
  have hread := (read_toJson _ hobtained).1
  rw [hwritten] at hread
  exact ⟨hobtained, hread⟩

end SymbolTable
end QueryExpr
