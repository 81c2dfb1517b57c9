/-
The tables that come about.

A table is made of entries, read from JSON or from a file, or taken as the default
one.  Each way ends in `ofEntries`, so every table holds what `ofEntries` checks.
-/
import QueryExpr.Proofs.Outcome
import QueryExpr.SymbolTable.File

namespace QueryExpr
namespace SymbolTable

/-- The table comes about in one of the ways there are. -/
inductive Obtained : SymbolTable → Prop where
  | entries {keywords symbols : List String} {t : SymbolTable}
      (h : ofEntries keywords symbols = .ok t) : Obtained t
  | default : Obtained SymbolTable.default
  | json {text : String} {t : SymbolTable} (h : read text = .ok t) : Obtained t
  | file {path : String} {content : FileContent} {t : SymbolTable}
      (h : load path content = .ok t) : Obtained t

theorem mem_insert {before : String → String → Bool} {s x : String} {entries : List String} :
    x ∈ insert before s entries ↔ x = s ∨ x ∈ entries := by
  induction entries with
  | nil => simp [insert]
  | cons t rest ih =>
    unfold insert
    by_cases hst : s = t
    · subst hst
      simp
    · by_cases hbt : before s t = true
      · simp [hst, hbt]
      · simp only [hst, hbt, if_false, List.mem_cons, ih, Bool.false_eq_true]
        exact or_left_comm

theorem mem_arrange {before : String → String → Bool} {x : String} {entries : List String} :
    x ∈ arrange before entries ↔ x ∈ entries := by
  induction entries with
  | nil => rfl
  | cons s rest ih =>
    show x ∈ insert before s (arrange before rest) ↔ _
    rw [mem_insert, ih, List.mem_cons]

theorem ofEntries_eq_ok_iff {keywords symbols : List String} {t : SymbolTable} :
    ofEntries keywords symbols = .ok t ↔
      (∀ k ∈ keywords, Text.isWord (Text.lower k).toList = true) ∧
        (∀ s ∈ symbols, isSymbol s = true) ∧
          t = { keywords := arrange keywordBefore (keywords.map Text.lower)
                symbols := arrange symbolBefore symbols } := by
  have hwords : (keywords.map Text.lower).find? (fun k => !Text.isWord k.toList) = none ↔
      ∀ k ∈ keywords, Text.isWord (Text.lower k).toList = true := by simp
  have hsymbols : symbols.find? (fun s => !isSymbol s) = none ↔
      ∀ s ∈ symbols, isSymbol s = true := by simp
  rw [← hwords, ← hsymbols]
  cases hk : (keywords.map Text.lower).find? fun k => !Text.isWord k.toList with
  | some k => simp [ofEntries, hk]
  | none =>
    cases hs : symbols.find? fun s => !isSymbol s with
    | some s => simp [ofEntries, hk, hs]
    | none => simp [ofEntries, hk, hs, eq_comm]

theorem ofEntries_default :
    ofEntries defaultKeywords defaultSymbols = .ok SymbolTable.default := by
  rw [ofEntries_eq_ok_iff]
  refine ⟨by decide, by decide, ?_⟩
  have hlower : defaultKeywords.map Text.lower = defaultKeywords := by decide
  rw [hlower]
  rfl

theorem ofEntries_of_read {text : String} {t : SymbolTable} (h : read text = .ok t) :
    ∃ keywords symbols, ofEntries keywords symbols = .ok t := by
  obtain ⟨⟨found, rest⟩, -, h⟩ := Outcome.bind_eq_ok.mp h
  obtain ⟨table, htable, h⟩ := Outcome.bind_eq_ok.mp h
  obtain ⟨_, -, h⟩ := Outcome.bind_eq_ok.mp h
  rw [Outcome.mapError_eq_ok] at htable
  cases h
  exact ⟨_, _, htable⟩

theorem read_of_load {path : String} {content : FileContent} {t : SymbolTable}
    (h : load path content = .ok t) : ∃ text, read text = .ok t := by
  cases content with
  | absent | directory => cases h
  | bytes content =>
    unfold load at h
    dsimp only at h
    split at h
    · cases h
    · exact ⟨_, Outcome.mapError_eq_ok.mp h⟩

namespace Obtained

theorem ofEntries {t : SymbolTable} (h : Obtained t) :
    ∃ keywords symbols, ofEntries keywords symbols = .ok t := by
  cases h with
  | entries h => exact ⟨_, _, h⟩
  | default => exact ⟨_, _, ofEntries_default⟩
  | json h => exact ofEntries_of_read h
  | file h =>
    obtain ⟨text, h⟩ := read_of_load h
    exact ofEntries_of_read h

theorem isSymbol_of_mem {t : SymbolTable} (h : Obtained t) {s : String} (hs : s ∈ t.symbols) :
    isSymbol s = true := by
  obtain ⟨keywords, symbols, h⟩ := h.ofEntries
  obtain ⟨-, hsymbols, rfl⟩ := ofEntries_eq_ok_iff.mp h
  exact hsymbols s (mem_arrange.mp hs)

theorem isBlank_eq_false_of_mem {t : SymbolTable} (h : Obtained t) {s : String}
    (hs : s ∈ t.symbols) {c : Char} (hc : c ∈ s.toList) : Text.isBlank c = false := by
  have hsymbol := h.isSymbol_of_mem hs
  simp only [isSymbol, Bool.and_eq_true, Bool.not_eq_true', List.any_eq_false] at hsymbol
  simpa using hsymbol.2 c hc

end Obtained
end SymbolTable
end QueryExpr
