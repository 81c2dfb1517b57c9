/-
Texts in quotes are told apart.

A character between quotes is written as a short escape, as itself or by its code point in
braces.  A text that begins with one of these forms begins with no other, and none of them
begins with a quote, so the quoted text and what follows it can be read off.
-/
import QueryExpr.Text.Quoted
import QueryExpr.Proofs.Text.Numerals

namespace QueryExpr
namespace Text

def shortEscapes : List (Char × Char) :=
  [('\x00', '0'), ('\t', 't'), ('\n', 'n'), ('\r', 'r'), ('"', '"'), ('\\', '\\')]

inductive IsQuotedForm (c : Char) : List Char → Prop where
  | short {e : Char} (he : (c, e) ∈ shortEscapes) : IsQuotedForm c ['\\', e]
  | shown (hquote : c ≠ '"') (hbackslash : c ≠ '\\') : IsQuotedForm c [c]
  | braced :
      IsQuotedForm c ('\\' :: 'u' :: '\x7b' :: (Nat.toDigits 16 c.toNat ++ ['\x7d']))

variable {c d : Char} {f g r s : List Char}

theorem isQuotedForm_quotedChar (c : Char) : IsQuotedForm c (quotedChar c) := by
  rw [quotedChar]
  split_ifs with h0 ht hn hr hquote hshown
  · exact .short (h0 ▸ by decide)
  · exact .short (ht ▸ by decide)
  · exact .short (hn ▸ by decide)
  · exact .short (hr ▸ by decide)
  · rcases hquote with rfl | rfl
    · exact .short (by decide)
    · exact .short (by decide)
  · exact .shown (fun h => hquote (Or.inl h)) fun h => hquote (Or.inr h)
  · exact .braced

theorem shortEscapes_inj {e : Char} (hc : (c, e) ∈ shortEscapes) (hd : (d, e) ∈ shortEscapes) :
    c = d := by
  have hall : ∀ p ∈ shortEscapes, ∀ q ∈ shortEscapes, p.2 = q.2 → p.1 = q.1 := by decide
  exact hall _ hc _ hd rfl

theorem u_not_short : (c, 'u') ∉ shortEscapes := by
  have hall : ∀ p ∈ shortEscapes, p.2 ≠ 'u' := by decide
  exact fun h => hall _ h rfl

theorem brace_not_mem_toDigits (n : Nat) : '\x7d' ∉ Nat.toDigits 16 n := by
  intro h
  obtain ⟨d, hd⟩ := exists_digitChar_of_mem_toDigits (by decide) h
  exact Nat.digitChar_ne _ (by decide) hd.symm

theorem IsQuotedForm.append_inj (hf : IsQuotedForm c f) (hg : IsQuotedForm d g)
    (h : f ++ r = g ++ s) : c = d ∧ r = s := by
  cases hf with
  | short he =>
    cases hg with
    | short he' =>
      cases h
      exact ⟨shortEscapes_inj he he', rfl⟩
    | shown hquote hbackslash =>
      cases h
      exact absurd rfl hbackslash
    | braced =>
      cases h
      exact absurd he u_not_short
  | shown hquote hbackslash =>
    cases hg with
    | shown hquote' hbackslash' =>
      cases h
      exact ⟨rfl, rfl⟩
    | _ =>
      cases h
      exact absurd rfl hbackslash
  | braced =>
    cases hg with
    | short he =>
      cases h
      exact absurd he u_not_short
    | shown hquote hbackslash =>
      cases h
      exact absurd rfl hbackslash
    | braced =>
      simp only [List.cons_append, List.append_assoc, List.cons.injEq, true_and,
        List.nil_append] at h
      obtain ⟨hdigits, hrest⟩ :=
        append_stop_inj (brace_not_mem_toDigits _) (brace_not_mem_toDigits _) h
      exact ⟨Char.toNat_inj.mp (toDigits_inj (by decide) (by decide) hdigits), hrest⟩

theorem IsQuotedForm.append_ne_quote (hf : IsQuotedForm c f) : f ++ r ≠ '"' :: s := by
  intro h
  cases hf with
  | shown hquote hbackslash => exact hquote (List.cons.inj h).1
  | _ => cases h

theorem flatMap_quotedChar_inj {l m : List Char}
    (h : l.flatMap quotedChar ++ '"' :: r = m.flatMap quotedChar ++ '"' :: s) :
    l = m ∧ r = s := by
  induction l generalizing m with
  | nil =>
    cases m with
    | nil => exact ⟨rfl, (List.cons.inj h).2⟩
    | cons d m =>
      rw [List.flatMap_cons, List.append_assoc] at h
      exact absurd h.symm (isQuotedForm_quotedChar d).append_ne_quote
  | cons c l ih =>
    cases m with
    | nil =>
      rw [List.flatMap_cons, List.append_assoc] at h
      exact absurd h (isQuotedForm_quotedChar c).append_ne_quote
    | cons d m =>
      rw [List.flatMap_cons, List.flatMap_cons, List.append_assoc, List.append_assoc] at h
      obtain ⟨rfl, hrest⟩ :=
        (isQuotedForm_quotedChar c).append_inj (isQuotedForm_quotedChar d) h
      obtain ⟨rfl, rfl⟩ := ih hrest
      exact ⟨rfl, rfl⟩

/-- A text that begins with a quoted text begins with no other. -/
theorem quoted_append_inj {a b : String} (h : quoted a ++ r = quoted b ++ s) :
    a = b ∧ r = s := by
  simp only [quoted, List.cons_append, List.append_assoc, List.cons.injEq, true_and,
    List.nil_append] at h
  obtain ⟨hchars, hrest⟩ := flatMap_quotedChar_inj h
  exact ⟨String.toList_inj.mp hchars, hrest⟩

end Text
end QueryExpr
