/-
What is found in a table of given entries.

A table keeps its entries in an order and a spelling of its own.  What a look-up finds is said
here by the entries as they were given: of the symbols that a text starts with the one of the
most bytes, and a word in small letters exactly when it is a keyword in some case.
-/
import QueryExpr.Proofs.Symbols.Order

namespace QueryExpr

namespace SymbolTable

/-- The symbol is the largest of the entries that the text starts with. -/
def IsLargestFront (entries : List String) (text : List Char) (s : String) : Prop :=
  s ∈ entries ∧ s.toList <+: text ∧
    ∀ x ∈ entries, x.toList <+: text → x.utf8ByteSize ≤ s.utf8ByteSize

section Entries

variable {keywords symbols : List String} {t : SymbolTable} {text : List Char} {s word k : String}

theorem longestSymbol?_eq_some_iff_isLargestFront (h : ofEntries keywords symbols = .ok t) :
    t.longestSymbol? text = some s ↔ IsLargestFront symbols text s := by
  have hmem := fun {x} => mem_symbols_iff h (s := x)
  have hlength : ∀ {x : String}, x.toList <+: text → s.toList <+: text →
      (x.toList.length ≤ s.toList.length ↔ x.utf8ByteSize ≤ s.utf8ByteSize) := by
    intro x hx hs
    rw [← Text.byteSize_toList, ← Text.byteSize_toList]
    exact Text.length_le_iff_byteSize_le hx hs
  rw [(Obtained.entries h).longestSymbol?_eq_some_iff, hmem, IsLargestFront]
  constructor
  · rintro ⟨hs, hfront, hmax⟩
    refine ⟨hs, hfront, fun x hx hxfront => ?_⟩
    exact (hlength hxfront hfront).mp (hmax x (hmem.mpr hx) hxfront)
  · rintro ⟨hs, hfront, hmax⟩
    refine ⟨hs, hfront, fun x hx hxfront => ?_⟩
    exact (hlength hxfront hfront).mpr (hmax x (hmem.mp hx) hxfront)

theorem keyword?_eq_some_iff_of_ofEntries (h : ofEntries keywords symbols = .ok t) :
    t.keyword? word = some k ↔ k = Text.lower word ∧ ∃ k' ∈ keywords, Text.lower k' = k := by
  rw [(isCanonical_of_ofEntries h).keyword?_eq_some_iff, mem_keywords_iff h]

/-- The symbol found is the largest entry at the front of the text, none is found when no entry
stands there, and the keyword found is the word made small, when an entry made small is the
same. -/
theorem lookups_of_ofEntries (h : ofEntries keywords symbols = .ok t) :
    (∀ text s, t.longestSymbol? text = some s ↔ IsLargestFront symbols text s) ∧
      (∀ text, t.longestSymbol? text = none ↔ ∀ s ∈ symbols, ¬ s.toList <+: text) ∧
      ∀ word k, t.keyword? word = some k ↔
        k = Text.lower word ∧ ∃ k' ∈ keywords, Text.lower k' = k := by
  refine ⟨fun _ _ => longestSymbol?_eq_some_iff_isLargestFront h, fun text => ?_,
    fun _ _ => keyword?_eq_some_iff_of_ofEntries h⟩
  rw [longestSymbol?_eq_none_iff]
  constructor
  · intro hnone s hs
    exact hnone s ((mem_symbols_iff h).mpr hs)
  · intro hnone s hs
    exact hnone s ((mem_symbols_iff h).mp hs)

/-- Two of the symbols stand at the front of the first text, and the longer one is found.  The sign
for a kelvin is no letter of ASCII, so it does not count as a small k. -/
theorem lookups_of_ofEntries_nested :
    ofEntries ["LIKE", "Is"] ["é", "===", "é=", "=", "é=é"] =
        .ok ⟨["is", "like"], ["é=é", "===", "é=", "é", "="]⟩ ∧
      longestSymbol? ⟨["is", "like"], ["é=é", "===", "é=", "é", "="]⟩ "é===".toList =
        some "é=" ∧
      longestSymbol? ⟨["is", "like"], ["é=é", "===", "é=", "é", "="]⟩ "e=".toList = none ∧
      keyword? ⟨["is", "like"], ["é=é", "===", "é=", "é", "="]⟩ "lIkE" = some "like" ∧
      keyword? ⟨["is", "like"], ["é=é", "===", "é=", "é", "="]⟩ "li\u212Ae" = none := by
  have h : ofEntries ["LIKE", "Is"] ["é", "===", "é=", "=", "é=é"] =
      .ok ⟨["is", "like"], ["é=é", "===", "é=", "é", "="]⟩ := by decide +kernel
  obtain ⟨hsymbol, hnone, hkeyword⟩ := lookups_of_ofEntries h
  refine ⟨h, (hsymbol _ _).mpr ?_, (hnone _).mpr ?_, (hkeyword _ _).mpr ?_, ?_⟩
  · exact ⟨by decide, by decide, by decide⟩
  · decide
  · exact ⟨by decide +kernel, "LIKE", by decide, by decide +kernel⟩
  · apply Option.eq_none_iff_forall_ne_some.mpr
    intro k hk
    obtain ⟨hlower, k', hk', rfl⟩ := (hkeyword _ _).mp hk
    revert hlower k' hk'
    decide +kernel

end Entries

end SymbolTable
end QueryExpr
