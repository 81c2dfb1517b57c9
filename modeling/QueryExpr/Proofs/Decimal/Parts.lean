/-
The parts of a decimal.

A decimal has a mantissa, which is digits with or without a point among them, and may have
an exponent.  Reading takes each part as far as it goes, so the part ends before the first
character that is not a digit.
-/
import QueryExpr.Decimal.Reading
import QueryExpr.Proofs.Text.Runs

namespace QueryExpr
namespace Decimal

/-- The text is a mantissa with these digits before and behind its point. -/
inductive IsMantissa : List Char → List Char → List Char → Prop where
  | pointed {whole fraction : List Char} (hwhole : Text.AllDigits whole)
      (hfraction : Text.AllDigits fraction) (hne : whole ≠ [] ∨ fraction ≠ []) :
      IsMantissa whole fraction (whole ++ '.' :: fraction)
  | plain {whole : List Char} (hwhole : Text.AllDigits whole) (hne : whole ≠ []) :
      IsMantissa whole [] whole

inductive IsExponent : List Char → Int → Prop where
  | unsigned {mark : Char} {ds : List Char} (hmark : mark = 'e' ∨ mark = 'E')
      (hds : Text.AllDigits ds) (hne : ds ≠ []) : IsExponent (mark :: ds) (Text.numeral ds)
  | plus {mark : Char} {ds : List Char} (hmark : mark = 'e' ∨ mark = 'E')
      (hds : Text.AllDigits ds) (hne : ds ≠ []) : IsExponent (mark :: '+' :: ds) (Text.numeral ds)
  | minus {mark : Char} {ds : List Char} (hmark : mark = 'e' ∨ mark = 'E')
      (hds : Text.AllDigits ds) (hne : ds ≠ []) :
      IsExponent (mark :: '-' :: ds) (-(Text.numeral ds : Int))

variable {text after part whole fraction mantissa : List Char} {m : Mantissa} {e : Int}

theorem IsMantissa.exists_head (h : IsMantissa whole fraction mantissa) :
    ∃ c rest, mantissa = c :: rest ∧ (c.isDigit = true ∨ c = '.') := by
  cases h with
  | pointed hwhole _ _ =>
    cases whole with
    | nil => exact ⟨'.', fraction, rfl, Or.inr rfl⟩
    | cons c whole =>
      exact ⟨c, whole ++ '.' :: fraction, rfl, Or.inl (hwhole c List.mem_cons_self)⟩
  | plain hwhole hne =>
    obtain ⟨c, rest, rfl⟩ := List.exists_cons_of_ne_nil hne
    exact ⟨c, rest, rfl, Or.inl (hwhole c List.mem_cons_self)⟩

theorem mantissa?_pointed (hwhole : Text.AllDigits whole) (hfraction : Text.AllDigits fraction)
    (hne : whole ≠ [] ∨ fraction ≠ []) (hafter : Text.StopsAt Char.isDigit after) :
    mantissa? (whole ++ '.' :: (fraction ++ after)) =
      some ⟨whole, fraction, whole ++ '.' :: fraction, after⟩ := by
  have hpoint : Text.StopsAt Char.isDigit ('.' :: (fraction ++ after)) := by simp
  unfold mantissa?
  rw [Text.digits_append hwhole hpoint, Text.afterDigits_append hwhole hpoint]
  show (if (whole.isEmpty && (Text.digits (fraction ++ after)).isEmpty) = true then none
    else some (Mantissa.mk whole (Text.digits (fraction ++ after))
      (whole ++ '.' :: Text.digits (fraction ++ after)) (Text.afterDigits (fraction ++ after)))) = _
  rw [Text.digits_append hfraction hafter, Text.afterDigits_append hfraction hafter, if_neg]
  simpa [imp_iff_not_or] using hne

theorem mantissa?_plain (hwhole : Text.AllDigits whole) (hne : whole ≠ [])
    (hafter : Text.StopsAt Char.isDigit after) (hpoint : Text.StopsAt (· == '.') after) :
    mantissa? (whole ++ after) = some ⟨whole, [], whole, after⟩ := by
  unfold mantissa?
  rw [Text.digits_append hwhole hafter, Text.afterDigits_append hwhole hafter]
  dsimp only
  split
  · simp at hpoint
  · rw [if_neg (by simpa using hne)]

theorem mantissa?_of_isMantissa (h : IsMantissa whole fraction mantissa)
    (hafter : Text.StopsAt Char.isDigit after) (hpoint : Text.StopsAt (· == '.') after) :
    mantissa? (mantissa ++ after) = some ⟨whole, fraction, mantissa, after⟩ := by
  cases h with
  | pointed hwhole hfraction hne =>
    rw [List.append_assoc, List.cons_append]
    exact mantissa?_pointed hwhole hfraction hne hafter
  | plain hwhole hne => exact mantissa?_plain hwhole hne hafter hpoint

theorem mantissa?_cases (h : mantissa? text = some m) :
    text = m.text ++ m.rest ∧ IsMantissa m.whole m.fraction m.text ∧
      Text.StopsAt Char.isDigit m.rest := by
  have htext := Text.digits_append_afterDigits text
  have hwhole := Text.allDigits_digits text
  unfold mantissa? at h
  dsimp only at h
  split at h
  · rename_i rest hrest
    split at h
    · cases h
    · rename_i hne
      cases h
      refine ⟨?_, .pointed hwhole (Text.allDigits_digits rest) ?_, Text.stopsAt_afterDigits rest⟩
      · have hfraction := Text.digits_append_afterDigits rest
        dsimp only
        rw [List.append_assoc, List.cons_append, hfraction, ← hrest, htext]
      · simpa [imp_iff_not_or] using hne
  · split at h
    · cases h
    · rename_i hne
      cases h
      exact ⟨htext.symm, .plain hwhole (by simpa using hne), Text.stopsAt_afterDigits text⟩

theorem mantissa?_point {rest : List Char} (h : Text.afterDigits text = '.' :: rest) :
    mantissa? text =
      if Text.digits text = [] ∧ Text.digits rest = [] then none
      else some ⟨Text.digits text, Text.digits rest,
        Text.digits text ++ '.' :: Text.digits rest, Text.afterDigits rest⟩ := by
  unfold mantissa?
  rw [h]
  simp only [Bool.and_eq_true, List.isEmpty_iff]

theorem mantissa?_noPoint (h : (Text.afterDigits text).head? ≠ some '.') :
    mantissa? text =
      if Text.digits text = [] then none
      else some ⟨Text.digits text, [], Text.digits text, Text.afterDigits text⟩ := by
  unfold mantissa?
  split
  · rename_i rest hrest
    rw [hrest] at h
    exact absurd rfl h
  · simp only [List.isEmpty_iff]

theorem signPart_cases (text : List Char) :
    (∃ rest, text = '+' :: rest ∧ signPart text = ['+']) ∨
      (∃ rest, text = '-' :: rest ∧ signPart text = ['-']) ∨ signPart text = [] := by
  unfold signPart
  split
  · exact Or.inl ⟨_, rfl, rfl⟩
  · exact Or.inr (Or.inl ⟨_, rfl, rfl⟩)
  · exact Or.inr (Or.inr rfl)

theorem signPart_append_drop (text : List Char) :
    signPart text ++ text.drop (signPart text).length = text := by
  rcases signPart_cases text with ⟨rest, rfl, hsign⟩ | ⟨rest, rfl, hsign⟩ | hsign <;> simp [hsign]

theorem signPart_digits {ds : List Char} (hds : Text.AllDigits ds) (hne : ds ≠ []) :
    signPart (ds ++ after) = [] := by
  cases ds with
  | nil => exact absurd rfl hne
  | cons c ds =>
    have hc := hds c List.mem_cons_self
    unfold signPart
    split
    · rename_i heq
      cases heq
      cases hc
    · rename_i heq
      cases heq
      cases hc
    · rfl

theorem IsExponent.exists_mark (h : IsExponent part e) :
    ∃ mark rest, part = mark :: rest ∧ (mark = 'e' ∨ mark = 'E') := by
  cases h with
  | unsigned hmark _ _ | plus hmark _ _ | minus hmark _ _ => exact ⟨_, _, rfl, hmark⟩

theorem IsExponent.not_plain (h : IsExponent part e) :
    ¬ ∀ c ∈ part, c.isDigit = true ∨ c = '.' := by
  intro hchars
  obtain ⟨mark, ds, rfl, hmark⟩ := h.exists_mark
  have hplain := hchars mark List.mem_cons_self
  rcases hmark with rfl | rfl
  · exact absurd hplain (by decide)
  · exact absurd hplain (by decide)

theorem exponentPart?_mark {mark : Char} {rest : List Char} (hmark : mark = 'e' ∨ mark = 'E') :
    exponentPart? (mark :: rest) =
      if Text.digits (rest.drop (signPart rest).length) = [] then none
      else some (mark :: (signPart rest ++ Text.digits (rest.drop (signPart rest).length)),
        if signPart rest = ['-'] then
          -(Text.numeral (Text.digits (rest.drop (signPart rest).length)) : Int)
        else Text.numeral (Text.digits (rest.drop (signPart rest).length))) := by
  show (if mark = 'e' ∨ mark = 'E' then _ else none) = _
  rw [if_pos hmark]
  simp only [List.isEmpty_iff]

theorem exponentPart?_complete (h : IsExponent part e) (hafter : Text.StopsAt Char.isDigit after) :
    exponentPart? (part ++ after) = some (part, e) := by
  cases h with
  | @unsigned mark ds hmark hds hne =>
    rw [List.cons_append, exponentPart?_mark hmark, signPart_digits hds hne]
    simp [Text.digits_append hds hafter, hne]
  | @plus mark ds hmark hds hne =>
    have hsign : signPart ('+' :: (ds ++ after)) = ['+'] := rfl
    rw [List.cons_append, List.cons_append, exponentPart?_mark hmark, hsign]
    simp [Text.digits_append hds hafter, hne]
  | @minus mark ds hmark hds hne =>
    have hsign : signPart ('-' :: (ds ++ after)) = ['-'] := rfl
    rw [List.cons_append, List.cons_append, exponentPart?_mark hmark, hsign]
    simp [Text.digits_append hds hafter, hne]

theorem exponentPart?_sound (h : exponentPart? text = some (part, e)) :
    ∃ after, text = part ++ after ∧ IsExponent part e ∧ Text.StopsAt Char.isDigit after := by
  cases text with
  | nil => cases h
  | cons mark rest =>
    have hmark : mark = 'e' ∨ mark = 'E' := by
      apply Classical.byContradiction
      intro hmark
      have hnone : exponentPart? (mark :: rest) = none := if_neg hmark
      rw [hnone] at h
      cases h
    rw [exponentPart?_mark hmark] at h
    have hsplit := signPart_append_drop rest
    have hds := Text.allDigits_digits (rest.drop (signPart rest).length)
    have hafter := Text.digits_append_afterDigits (rest.drop (signPart rest).length)
    split at h
    · cases h
    · rename_i hne
      cases h
      refine ⟨Text.afterDigits (rest.drop (signPart rest).length), ?_, ?_,
        Text.stopsAt_afterDigits _⟩
      · rw [List.cons_append, List.append_assoc, hafter, hsplit]
      · rcases signPart_cases rest with ⟨_, -, hsign⟩ | ⟨_, -, hsign⟩ | hsign
        · rw [hsign] at hne hds ⊢
          exact .plus hmark hds hne
        · rw [hsign] at hne hds ⊢
          exact .minus hmark hds hne
        · rw [hsign] at hne hds ⊢
          exact .unsigned hmark hds hne

theorem exponentPart?_eq_some_iff :
    exponentPart? text = some (part, e) ↔
      ∃ after, text = part ++ after ∧ IsExponent part e ∧ Text.StopsAt Char.isDigit after := by
  constructor
  · exact exponentPart?_sound
  · rintro ⟨after, rfl, hpart, hafter⟩
    exact exponentPart?_complete hpart hafter

theorem toLower_of_le {c : Char} (h : c.toNat ≤ 57) : c.toLower = c := by
  have hval : c.val.toNat ≤ 57 := h
  unfold Char.toLower
  rw [dif_neg]
  rintro ⟨hlow, -⟩
  have hlow : 65 ≤ c.val.toNat := UInt32.le_iff_toNat_le.mp hlow
  omega

/-- A mantissa with an exponent or none is read as the float of the two. -/
theorem float?_eq
    (hm : IsMantissa m.whole m.fraction m.text)
    (hpart : part = [] ∧ e = 0 ∨ IsExponent part e) :
    float? (String.ofList (m.text ++ part)) = some (m.toFloat e) := by
  obtain ⟨c, rest, htext, hc⟩ := hm.exists_head
  have hrange : 46 ≤ c.toNat ∧ c.toNat ≤ 57 := by
    rcases hc with hc | rfl
    · have := Text.toNat_of_isDigit hc
      omega
    · decide
  have hsign : signPart (m.text ++ part) = [] := by
    rw [htext]
    rcases signPart_cases (c :: rest ++ part) with ⟨_, h, -⟩ | ⟨_, h, -⟩ | h
    · cases h
      exact absurd hrange (by decide)
    · cases h
      exact absurd hrange (by decide)
    · exact h
  -- the names of floats begin with letters
  have hnamed : ∀ (first : Char) (others : List Char), 57 < first.toNat →
      (m.text ++ part).map Char.toLower ≠ first :: others := by
    intro first others hfirst h
    rw [htext, List.cons_append, List.map_cons, toLower_of_le hrange.2] at h
    cases h
    omega
  have hstops : Text.StopsAt Char.isDigit part ∧ Text.StopsAt (· == '.') part := by
    rcases hpart with ⟨rfl, -⟩ | hpart
    · exact ⟨Text.stopsAt_nil _, Text.stopsAt_nil _⟩
    · obtain ⟨mark, ds, rfl, rfl | rfl⟩ := hpart.exists_mark <;> simp
  have hread := mantissa?_of_isMantissa hm hstops.1 hstops.2
  have hvalue : unsigned? (m.text ++ part) = some (m.toFloat e) := by
    unfold unsigned?
    dsimp only
    rw [if_neg, if_neg, hread]
    · rcases hpart with ⟨rfl, rfl⟩ | hpart
      · rfl
      · have hwhole := exponentPart?_complete hpart (Text.stopsAt_nil Char.isDigit)
        rw [List.append_nil] at hwhole
        simp [hwhole, Mantissa.toFloat]
    · exact hnamed 'n' ['a', 'n'] (by decide)
    · rintro (h | h)
      · exact hnamed 'i' ['n', 'f'] (by decide) h
      · exact hnamed 'i' ['n', 'f', 'i', 'n', 'i', 't', 'y'] (by decide) h
  unfold float?
  dsimp only
  rw [String.toList_ofList, hsign, List.length_nil, List.drop_zero, hvalue, Option.map_some,
    if_neg (List.cons_ne_nil '-' []).symm]

end Decimal

end QueryExpr
