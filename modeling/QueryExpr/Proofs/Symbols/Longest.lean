/-
The longest symbol at the front of a text.

The symbols of a table stand in the order of their sizes, the largest first, so the first
one that the text starts with is the longest of those that it starts with.
-/
import QueryExpr.Proofs.Symbols.Obtained

namespace QueryExpr

namespace Text

theorem utf8ByteSize_ofList (text : List Char) :
    (String.ofList text).utf8ByteSize = byteSize text := by
  induction text with
  | nil => rfl
  | cons c rest ih =>
    have hcons : String.ofList (c :: rest) = String.singleton c ++ String.ofList rest := by
      rw [String.singleton_eq_ofList, ← String.ofList_append]
      rfl
    rw [hcons, String.utf8ByteSize_append, String.utf8ByteSize_singleton, ih, byteSize_cons]

@[simp] theorem byteSize_toList (s : String) : byteSize s.toList = s.utf8ByteSize := by
  rw [← utf8ByteSize_ofList, String.ofList_toList]

theorem byteSize_le_of_isPrefix {a text : List Char} (h : a <+: text) :
    byteSize a ≤ byteSize text := by
  obtain ⟨more, rfl⟩ := h
  rw [byteSize_append]
  exact Nat.le_add_right _ _

/-- Of two fronts of one text the longer one has more bytes. -/
theorem byteSize_lt_of_isPrefix {a b text : List Char} (ha : a <+: text) (hb : b <+: text)
    (h : a.length < b.length) : byteSize a < byteSize b := by
  obtain ⟨more, rfl⟩ := List.prefix_of_prefix_length_le ha hb (Nat.le_of_lt h)
  have hmore := length_le_byteSize more
  rw [List.length_append] at h
  rw [byteSize_append]
  omega

/-- Of two fronts of one text the one with more characters has more bytes, and the other way
round. -/
theorem length_le_iff_byteSize_le {a b text : List Char} (ha : a <+: text) (hb : b <+: text) :
    a.length ≤ b.length ↔ byteSize a ≤ byteSize b := by
  constructor
  · intro h
    exact byteSize_le_of_isPrefix (List.prefix_of_prefix_length_le ha hb h)
  · intro h
    apply Nat.le_of_not_lt
    intro hlt
    have := byteSize_lt_of_isPrefix hb ha hlt
    omega

theorem eq_of_isPrefix {a b text : List Char} (ha : a <+: text) (hb : b <+: text)
    (h : a.length = b.length) : a = b :=
  (List.prefix_of_prefix_length_le ha hb (Nat.le_of_eq h)).eq_of_length h

theorem eq_of_byteSize_eq {a b text : List Char} (ha : a <+: text) (hb : b <+: text)
    (h : byteSize a = byteSize b) : a = b := by
  have hle := (length_le_iff_byteSize_le ha hb).mpr (Nat.le_of_eq h)
  have hge := (length_le_iff_byteSize_le hb ha).mpr (Nat.le_of_eq h.symm)
  exact eq_of_isPrefix ha hb (Nat.le_antisymm hle hge)

end Text

namespace SymbolTable

theorem longestSymbol?_eq_none_iff {t : SymbolTable} {text : List Char} :
    t.longestSymbol? text = none ↔ ∀ s ∈ t.symbols, ¬ s.toList <+: text := by
  rw [longestSymbol?, List.find?_eq_none]
  simp only [List.isPrefixOf_iff_prefix]

section Order

variable {before : String → String → Bool} {R : String → String → Prop} {entries : List String}

/-- An entry comes behind those that it is not before. -/
theorem pairwise_insert (htrans : ∀ a b c, R a b → R b c → R a c)
    (hbefore : ∀ s t, before s t = true → R s t)
    (hbehind : ∀ s t, s ≠ t → before s t = false → R t s) (s : String)
    (h : entries.Pairwise R) : (insert before s entries).Pairwise R := by
  induction entries with
  | nil => exact List.pairwise_singleton R s
  | cons t rest ih =>
    obtain ⟨ht, hrest⟩ := List.pairwise_cons.mp h
    unfold insert
    by_cases hst : s = t
    · rw [if_pos hst]
      exact h
    · rw [if_neg hst]
      by_cases hfirst : before s t = true
      · rw [if_pos hfirst]
        refine List.pairwise_cons.mpr ⟨fun x hx => ?_, h⟩
        rcases List.mem_cons.mp hx with rfl | hx
        · exact hbefore s x hfirst
        · exact htrans s t x (hbefore s t hfirst) (ht x hx)
      · rw [if_neg hfirst]
        refine List.pairwise_cons.mpr ⟨fun x hx => ?_, ih hrest⟩
        rcases mem_insert.mp hx with rfl | hx
        · exact hbehind x t hst (Bool.eq_false_iff.mpr hfirst)
        · exact ht x hx

theorem pairwise_arrange (htrans : ∀ a b c, R a b → R b c → R a c)
    (hbefore : ∀ s t, before s t = true → R s t)
    (hbehind : ∀ s t, s ≠ t → before s t = false → R t s) (entries : List String) :
    (arrange before entries).Pairwise R := by
  induction entries with
  | nil => exact List.Pairwise.nil
  | cons s rest ih => exact pairwise_insert htrans hbefore hbehind s ih

end Order

namespace Obtained

variable {t : SymbolTable}

/-- No symbol is larger than one that stands before it. -/
theorem symbols_ordered (h : t.Obtained) :
    t.symbols.Pairwise fun a b => b.utf8ByteSize ≤ a.utf8ByteSize := by
  obtain ⟨keywords, symbols, h⟩ := h.ofEntries
  obtain ⟨-, -, rfl⟩ := ofEntries_eq_ok_iff.mp h
  apply pairwise_arrange
  · intro a b c hab hbc
    exact Nat.le_trans hbc hab
  · intro a b hbefore
    simp only [symbolBefore, Bool.or_eq_true, decide_eq_true_eq, Bool.and_eq_true,
      beq_iff_eq] at hbefore
    omega
  · intro a b _ hbehind
    simp only [symbolBefore, Bool.or_eq_false_iff, decide_eq_false_iff_not] at hbehind
    omega

theorem longestSymbol?_eq_some_iff (h : t.Obtained) {text : List Char} {s : String} :
    t.longestSymbol? text = some s ↔
      s ∈ t.symbols ∧ s.toList <+: text ∧
        ∀ x ∈ t.symbols, x.toList <+: text → x.toList.length ≤ s.toList.length := by
  have hlongest : ∀ {s}, t.longestSymbol? text = some s →
      s ∈ t.symbols ∧ s.toList <+: text ∧
        ∀ x ∈ t.symbols, x.toList <+: text → x.toList.length ≤ s.toList.length := by
    intro s hs
    obtain ⟨hfront, before, behind, hsymbols, hbefore⟩ := List.find?_eq_some_iff_append.mp hs
    rw [List.isPrefixOf_iff_prefix] at hfront
    refine ⟨List.mem_of_find?_eq_some hs, hfront, fun x hx hxfront => ?_⟩
    have hbehind : x ∈ s :: behind := by
      rw [hsymbols] at hx
      refine (List.mem_append.mp hx).resolve_left fun hx => ?_
      have hnot := hbefore x hx
      rw [List.isPrefixOf_iff_prefix.mpr hxfront] at hnot
      cases hnot
    rcases List.mem_cons.mp hbehind with rfl | hx
    · exact Nat.le_refl _
    · have hordered := h.symbols_ordered
      rw [hsymbols] at hordered
      have hsize := List.rel_of_pairwise_cons (List.pairwise_append.mp hordered).2.1 hx
      apply (Text.length_le_iff_byteSize_le hxfront hfront).mpr
      simpa using hsize
  constructor
  · exact hlongest
  · rintro ⟨hs, hfront, hmax⟩
    cases hfound : t.longestSymbol? text with
    | none => exact absurd hfront (longestSymbol?_eq_none_iff.mp hfound s hs)
    | some x =>
      obtain ⟨hx, hxfront, hxmax⟩ := hlongest hfound
      have hlength := Nat.le_antisymm (hmax x hx hxfront) (hxmax s hs hfront)
      exact congrArg some (String.toList_inj.mp (Text.eq_of_isPrefix hxfront hfront hlength))

end Obtained
end SymbolTable
end QueryExpr
