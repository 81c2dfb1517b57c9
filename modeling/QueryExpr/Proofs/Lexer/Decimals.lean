/-
The longest decimal at the front of a text.

A decimal has digits around a point, or it has an exponent, or both.  One at the front of a text
goes on with the digits that follow it, and without an exponent it goes on with one that follows
these.  With both it ends where the match of the matcher ends, so every decimal at the front of a
text is a front of the match.
-/
import QueryExpr.Proofs.Checked.Matching

namespace QueryExpr

open Text

namespace Decimal

/-- The text is `D+ '.' D* E?`, `'.' D+ E?` or `D+ E`, where `D` is a digit and `E` is
`[eE][+-]?D+`. -/
inductive IsFloat : List Char → Prop where
  | pointed {whole fraction part : List Char} (hwhole : AllDigits whole) (hne : whole ≠ [])
      (hfraction : AllDigits fraction) (hpart : part = [] ∨ ∃ e, IsExponent part e) :
      IsFloat (whole ++ '.' :: (fraction ++ part))
  | pointFirst {fraction part : List Char} (hfraction : AllDigits fraction) (hne : fraction ≠ [])
      (hpart : part = [] ∨ ∃ e, IsExponent part e) : IsFloat ('.' :: (fraction ++ part))
  | scientific {whole part : List Char} {e : Int} (hwhole : AllDigits whole) (hne : whole ≠ [])
      (hpart : IsExponent part e) : IsFloat (whole ++ part)

section Parts

variable {whole fraction part ds : List Char} {e : Int}

theorem IsFloat.of_parts (hwhole : AllDigits whole) (hfraction : AllDigits fraction)
    (hne : whole ≠ [] ∨ fraction ≠ []) (hpart : part = [] ∨ ∃ e, IsExponent part e) :
    IsFloat (whole ++ '.' :: (fraction ++ part)) := by
  by_cases hnone : whole = []
  · rw [hnone]
    exact .pointFirst hfraction (hne.resolve_left (not_not_intro hnone)) hpart
  · exact .pointed hwhole hnone hfraction hpart

theorem IsExponent.append_digits (h : IsExponent part e) (hds : AllDigits ds) :
    ∃ e', IsExponent (part ++ ds) e' := by
  cases h with
  | unsigned hmark hrun hne =>
    exact ⟨_, .unsigned hmark (hrun.append hds) (List.append_ne_nil_of_left_ne_nil hne ds)⟩
  | plus hmark hrun hne =>
    exact ⟨_, .plus hmark (hrun.append hds) (List.append_ne_nil_of_left_ne_nil hne ds)⟩
  | minus hmark hrun hne =>
    exact ⟨_, .minus hmark (hrun.append hds) (List.append_ne_nil_of_left_ne_nil hne ds)⟩

end Parts

end Decimal

/-- The text spells a float. -/
def SpellsFloat (table : SymbolTable) (t : List Char) : Prop := ∃ x, Spells table t (.float x)

section Floats

variable {table : SymbolTable} {t text part rest ds : List Char} {e : Int}

theorem spellsFloat_of_parts (table : SymbolTable) {whole fraction : List Char}
    (hwhole : AllDigits whole) (hfraction : AllDigits fraction) (hne : whole ≠ [] ∨ fraction ≠ [])
    (hpart : part = [] ∨ ∃ e, Decimal.IsExponent part e) :
    SpellsFloat table (whole ++ '.' :: (fraction ++ part)) := by
  rcases hpart with rfl | ⟨e, hpart⟩
  · rw [List.append_nil]
    exact ⟨_, .decimal hwhole hfraction hne⟩
  · have hspells : Spells table _ _ := .scientific (.pointed hwhole hfraction hne) hpart
    rw [List.append_assoc, List.cons_append] at hspells
    exact ⟨_, hspells⟩

theorem spellsFloat_iff : SpellsFloat table t ↔ Decimal.IsFloat t := by
  constructor
  · intro ⟨x, h⟩
    cases h with
    | @decimal whole fraction hwhole hfraction hne =>
      have hfloat := Decimal.IsFloat.of_parts hwhole hfraction hne (Or.inl rfl)
      rwa [List.append_nil] at hfloat
    | @scientific _ _ _ _ e hmantissa hpart =>
      cases hmantissa with
      | pointed hwhole hfraction hne =>
        rw [List.append_assoc, List.cons_append]
        exact .of_parts hwhole hfraction hne (Or.inr ⟨e, hpart⟩)
      | plain hwhole hne => exact .scientific hwhole hne hpart
  · intro h
    cases h with
    | pointed hwhole hne hfraction hpart =>
      exact spellsFloat_of_parts table hwhole hfraction (Or.inl hne) hpart
    | pointFirst hfraction hne hpart =>
      have hnone : AllDigits [] := nofun
      exact spellsFloat_of_parts table hnone hfraction (Or.inr hne) hpart
    | scientific hwhole hne hpart => exact ⟨_, .scientific (.plain hwhole hne) hpart⟩

theorem SpellsFloat.append_digits (h : SpellsFloat table t) (hds : AllDigits ds) :
    SpellsFloat table (t ++ ds) := by
  obtain ⟨x, h⟩ := h
  cases h with
  | decimal hwhole hfraction hne =>
    rw [List.append_assoc, List.cons_append]
    exact ⟨_, .decimal hwhole (hfraction.append hds)
      (hne.imp_right fun hne => List.append_ne_nil_of_left_ne_nil hne ds)⟩
  | scientific hmantissa hpart =>
    obtain ⟨e, hpart⟩ := hpart.append_digits hds
    rw [List.append_assoc]
    exact ⟨_, .scientific hmantissa hpart⟩

theorem SpellsFloat.append_exponent (h : SpellsFloat table t)
    (hplain : ∀ c ∈ t, c.isDigit = true ∨ c = '.') (hpart : Decimal.IsExponent part e) :
    SpellsFloat table (t ++ part) := by
  obtain ⟨x, h⟩ := h
  cases h with
  | decimal hwhole hfraction hne => exact ⟨_, .scientific (.pointed hwhole hfraction hne) hpart⟩
  | scientific _ hpart' =>
    exact absurd (fun c hc => hplain c (List.mem_append_right _ hc)) hpart'.not_plain

/-- A float that no digit follows goes on to where floats end. -/
theorem SpellsFloat.exists_reads (h : SpellsFloat table t) (hrest : StopsAt Char.isDigit rest) :
    ∃ q x, t <+: q ∧ Reads table (t ++ rest) q (.float x) := by
  by_cases hplain : ∀ c ∈ t, c.isDigit = true ∨ c = '.'
  · cases hpart : Decimal.exponentPart? rest with
    | none =>
      obtain ⟨x, h⟩ := h
      exact ⟨t, x, List.prefix_rfl, rest, rfl, h, hrest, fun _ => hpart⟩
    | some found =>
      obtain ⟨after, rfl, hexponent, hafter⟩ := Decimal.exponentPart?_sound hpart
      obtain ⟨x, h⟩ := h.append_exponent hplain hexponent
      refine ⟨_, x, List.prefix_append t _, after, (List.append_assoc _ _ _).symm, h, hafter, ?_⟩
      intro hchars
      exact absurd (fun c hc => hchars c (List.mem_append_right t hc)) hexponent.not_plain
  · obtain ⟨x, h⟩ := h
    exact ⟨t, x, List.prefix_rfl, rest, rfl, h, hrest, fun hchars => absurd hchars hplain⟩

/-- A float at the front of a text is a front of the match. -/
theorem exists_match_of_isFloat (table : SymbolTable) (h : Decimal.IsFloat t)
    (hfront : t <+: text) : ∃ m, Matcher.float table text = some m ∧ t <+: m.text := by
  obtain ⟨rest, rfl⟩ := hfront
  have hlonger : SpellsFloat table (t ++ digits rest) :=
    (spellsFloat_iff.mpr h).append_digits (allDigits_digits rest)
  obtain ⟨q, x, hq, hreads⟩ := hlonger.exists_reads (stopsAt_afterDigits rest)
  rw [List.append_assoc, digits_append_afterDigits] at hreads
  exact ⟨⟨q, .float x⟩, Matcher.float_eq_some_iff.mpr ⟨rfl, hreads⟩,
    (List.prefix_append t _).trans hq⟩

theorem isFloat_of_match {m : Match} (h : Matcher.float table text = some m) :
    m.text <+: text ∧ Decimal.IsFloat m.text := by
  obtain ⟨t, tok⟩ := m
  obtain ⟨hkind, hreads⟩ := Matcher.float_eq_some_iff.mp h
  obtain ⟨after, -, hspells, -⟩ := id hreads
  cases tok with
  | float x => exact ⟨hreads.isPrefix, spellsFloat_iff.mp ⟨x, hspells⟩⟩
  | _ => simp [Token.kind] at hkind

end Floats

/-- A match is found in just the texts that start with a float, and it is the longest float that
the text starts with.  On bytes the same is found, and the value of what is taken can always be
read. -/
theorem float_takes_longest (table : SymbolTable) (text : List Char) :
    ((∃ m, Matcher.float table text = some m) ↔ ∃ t, t <+: text ∧ Decimal.IsFloat t) ∧
    (∀ m, Matcher.float table text = some m → m.text <+: text ∧ Decimal.IsFloat m.text ∧
      ∀ t, t <+: text → Decimal.IsFloat t → byteSize t ≤ m.length) ∧
    Checked.float table text = .ok ((Matcher.float table text).map Match.taken) := by
  refine ⟨⟨?_, ?_⟩, ?_, Checked.float_eq table text⟩
  · intro ⟨m, hm⟩
    exact ⟨m.text, isFloat_of_match hm⟩
  · intro ⟨t, hfront, hfloat⟩
    obtain ⟨m, hm, -⟩ := exists_match_of_isFloat table hfloat hfront
    exact ⟨m, hm⟩
  · intro m hm
    obtain ⟨hfront, hfloat⟩ := isFloat_of_match hm
    refine ⟨hfront, hfloat, ?_⟩
    intro t ht hfloat
    obtain ⟨m', hm', htaken⟩ := exists_match_of_isFloat table hfloat ht
    obtain rfl := Option.some.inj (hm.symm.trans hm')
    exact byteSize_le_of_isPrefix htaken

/-- The second exponent of a text has no digits and is left, and a point without digits is no
float whatever comes behind it. -/
theorem float_takes_longest_first_exponent :
    "1.".toList <+: "1.5e3e+".toList ∧ Decimal.IsFloat "1.".toList ∧
      (∃ m, Matcher.float SymbolTable.default "1.5e3e+".toList = some m ∧
        m.text = "1.5e3".toList ∧ Decimal.IsFloat "1.5e3".toList ∧ byteSize "1.".toList ≤ 5) ∧
      Matcher.float SymbolTable.default ".e5".toList = none ∧
      ¬ ∃ t, t <+: ".e5".toList ∧ Decimal.IsFloat t := by
  have hfront : "1.".toList <+: "1.5e3e+".toList := by decide +kernel
  have hone : AllDigits ['1'] := by simp [AllDigits]
  have hfloat : Decimal.IsFloat (['1'] ++ '.' :: ([] ++ [])) :=
    .pointed hone nofun nofun (Or.inl rfl)
  obtain ⟨hfound, hlongest, -⟩ := float_takes_longest SymbolTable.default "1.5e3e+".toList
  obtain ⟨m, hm⟩ := hfound.mpr ⟨_, hfront, hfloat⟩
  obtain ⟨-, hmatch, hmost⟩ := hlongest m hm
  have htext : (Matcher.float SymbolTable.default "1.5e3e+".toList).map Match.text =
      some "1.5e3".toList := by
    decide +kernel
  rw [hm] at htext
  have htaken : m.text = "1.5e3".toList := Option.some.inj htext
  have hlength : m.length = 5 := congrArg byteSize htaken
  have hnone : Matcher.float SymbolTable.default ".e5".toList = none :=
    Option.isNone_iff_eq_none.mp (by decide +kernel)
  have hshort := hmost _ hfront hfloat
  rw [hlength] at hshort
  rw [htaken] at hmatch
  refine ⟨hfront, hfloat, ⟨m, hm, htaken, hmatch, hshort⟩, hnone, ?_⟩
  intro hfronts
  obtain ⟨m, hm⟩ := (float_takes_longest SymbolTable.default ".e5".toList).1.mpr hfronts
  cases hnone.symm.trans hm

end QueryExpr
