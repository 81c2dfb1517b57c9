/-
A text has one segmentation.

A finding is settled by the text it stands at the front of: a lexeme takes the longest match
and an unrecognized text everything up to the next blank.  No finding starts with a blank, so
the blanks before it are settled too.  Whatever segments of a text can be named are therefore
the ones that tokenizing finds.
-/
import QueryExpr.Proofs.Lexer.MaximalMunch

namespace QueryExpr

section Unique

variable {table : SymbolTable} {before taken taken' after after' t text : List Char} {tok : Token}

theorem Spells.stopsAt_blank (ht : table.Obtained) (h : Spells table t tok) :
    Text.StopsAt Text.isBlank (t ++ after) := by
  obtain ⟨c, rest, htext, hc⟩ := h.exists_head ht
  have hblank : Text.isBlank c = false := by
    cases h with
    | int | date | datetime => exact Text.isBlank_eq_false_of_isDigit hc
    | decimal | scientific =>
      rcases hc with hc | rfl
      · exact Text.isBlank_eq_false_of_isDigit hc
      · decide
    | str =>
      cases hc
      decide
    | identifier | keyword => exact Text.isBlank_eq_false_of_isWordStart hc
    | symbol hs => exact ht.isBlank_eq_false_of_mem hs (List.mem_of_mem_head? hc)
  rw [htext, List.cons_append, Text.stopsAt_cons]
  exact hblank

/-- A front of as many bytes as another one is the same. -/
theorem reads_append_iff (hsize : Text.byteSize t = Text.byteSize taken) :
    Reads table (taken ++ after) t tok ↔
      t = taken ∧ Spells table taken tok ∧ Ends table taken after tok := by
  constructor
  · intro h
    obtain rfl := Text.eq_of_byteSize_eq h.isPrefix (List.prefix_append taken after) hsize
    obtain ⟨after', heq, hspells, hends⟩ := h
    obtain rfl := List.append_cancel_left heq
    exact ⟨rfl, hspells, hends⟩
  · rintro ⟨rfl, hspells, hends⟩
    exact ⟨after, rfl, hspells, hends⟩

namespace Lexeme.IsLongest

variable {l : Lexeme}

/-- The text of a lexeme spells a token and ends there. -/
theorem exists_spells (ht : table.Obtained) (h : l.IsLongest table before taken after) :
    ∃ tok, Spells table taken tok ∧ Ends table taken after tok := by
  obtain ⟨⟨t, tok⟩, hm, hlength⟩ := h.reached
  have hsize : Text.byteSize t = Text.byteSize taken := by
    rw [h.span_eq, Span.behind_length] at hlength
    exact hlength
  obtain ⟨-, hspells, hends⟩ := (reads_append_iff hsize).mp ((Matcher.mem_allMatches_iff ht).mp hm)
  exact ⟨tok, hspells, hends⟩

theorem byteSize_le (ht : table.Obtained) (h : l.IsLongest table before taken after)
    (hreads : Reads table (taken ++ after) t tok) : Text.byteSize t ≤ Text.byteSize taken := by
  have hle := h.greatest ⟨t, tok⟩ ((Matcher.mem_allMatches_iff ht).mpr hreads)
  rw [h.span_eq, Span.behind_length] at hle
  exact hle

theorem unique (ht : table.Obtained) {l' : Lexeme} (h : l.IsLongest table before taken after)
    (h' : l'.IsLongest table before taken' after') (htext : taken ++ after = taken' ++ after') :
    taken = taken' ∧ l = l' := by
  obtain ⟨tok, hspells, hends⟩ := h.exists_spells ht
  obtain ⟨tok', hspells', hends'⟩ := h'.exists_spells ht
  have hle := h'.byteSize_le ht ⟨after, htext.symm, hspells, hends⟩
  have hge := h.byteSize_le ht ⟨after', htext, hspells', hends'⟩
  obtain rfl := Text.eq_of_byteSize_eq (List.prefix_append taken after) ⟨after', htext.symm⟩
    (Nat.le_antisymm hle hge)
  have hspan : l.span = l'.span := h.span_eq.trans h'.span_eq.symm
  have hcandidates : l.candidates = l'.candidates := by
    rw [h.candidates_eq, h'.candidates_eq, hspan, htext]
  cases l
  cases l'
  rw [Lexeme.mk.injEq]
  exact ⟨rfl, hspan, hcandidates⟩

theorem not_isUnmatched {u : Unrecognized} (h : l.IsLongest table before taken after)
    (hu : u.IsUnmatched table before taken' after') : taken ++ after ≠ taken' ++ after' := by
  intro htext
  obtain ⟨m, hm, -⟩ := h.reached
  rw [htext, hu.unmatched] at hm
  exact absurd hm List.not_mem_nil

end Lexeme.IsLongest

theorem Unrecognized.IsUnmatched.takeWhile_eq {u : Unrecognized}
    (h : u.IsUnmatched table before taken after) :
    ((taken ++ after).takeWhile fun x => !Text.isBlank x) = taken := by
  apply Text.takeWhile_append_of_stopsAt
  · intro x hx
    rw [h.unbroken x hx]
    rfl
  · intro x hx
    show (!Text.isBlank x) = false
    rw [h.ended x hx]
    rfl

theorem Unrecognized.IsUnmatched.unique {u u' : Unrecognized}
    (h : u.IsUnmatched table before taken after) (h' : u'.IsUnmatched table before taken' after')
    (htext : taken ++ after = taken' ++ after') : taken = taken' ∧ u = u' := by
  obtain rfl : taken = taken' := by
    rw [← h.takeWhile_eq, htext, h'.takeWhile_eq]
  have hspan : u.span = u'.span := h.span_eq.trans h'.span_eq.symm
  have hsame : u.text = u'.text := h.text_eq.trans h'.text_eq.symm
  cases u
  cases u'
  rw [Unrecognized.mk.injEq]
  exact ⟨rfl, hsame, hspan⟩

namespace Finding.IsRight

variable {f g : Finding}

theorem stopsAt_blank (ht : table.Obtained) (h : f.IsRight table before taken after)
    (hne : taken ≠ []) : Text.StopsAt Text.isBlank (taken ++ after) := by
  cases f with
  | lexeme l =>
    obtain ⟨tok, hspells, -⟩ := Lexeme.IsLongest.exists_spells ht h
    exact hspells.stopsAt_blank ht
  | unrecognized u =>
    obtain ⟨c, rest, rfl⟩ := List.exists_cons_of_ne_nil hne
    have hc := Unrecognized.IsUnmatched.unbroken h c List.mem_cons_self
    rw [List.cons_append, Text.stopsAt_cons]
    exact hc

theorem exists_not_blank (ht : table.Obtained) (h : f.IsRight table before taken after)
    (hne : taken ≠ []) : ∃ x ∈ taken, Text.isBlank x = false := by
  have hstop := h.stopsAt_blank ht hne
  obtain ⟨x, rest, rfl⟩ := List.exists_cons_of_ne_nil hne
  exact ⟨x, List.mem_cons_self, Text.stopsAt_cons.mp hstop⟩

/-- The text at the front of which a finding stands settles what it takes and what it is. -/
theorem unique (ht : table.Obtained) (hf : f.IsRight table before taken after)
    (hg : g.IsRight table before taken' after') (htext : taken ++ after = taken' ++ after') :
    taken = taken' ∧ f = g := by
  cases f with
  | lexeme l =>
    cases g with
    | lexeme l' =>
      obtain ⟨htaken, rfl⟩ := Lexeme.IsLongest.unique ht hf hg htext
      exact ⟨htaken, rfl⟩
    | unrecognized u => exact absurd htext (Lexeme.IsLongest.not_isUnmatched hf hg)
  | unrecognized u =>
    cases g with
    | lexeme l => exact absurd htext.symm (Lexeme.IsLongest.not_isUnmatched hg hf)
    | unrecognized u' =>
      obtain ⟨htaken, rfl⟩ := Unrecognized.IsUnmatched.unique hf hg htext
      exact ⟨htaken, rfl⟩

end Finding.IsRight

end Unique

namespace Segmented

variable {table : SymbolTable} {before blanks text text' : List Char} {fs gs : List Finding}

theorem blanks_append (hblanks : ∀ x ∈ blanks, Text.isBlank x = true)
    (h : Segmented table (before ++ blanks) text fs) :
    Segmented table before (blanks ++ text) fs := by
  cases h with
  | blank hblank =>
    refine .blank fun x hx => ?_
    exact (List.mem_append.mp hx).elim (hblanks x) (hblank x)
  | @found _ blanks' taken after f fs hblanks' hne hf tail =>
    rw [← List.append_assoc]
    refine .found (fun x hx => ?_) hne ?_ ?_
    · exact (List.mem_append.mp hx).elim (hblanks x) (hblanks' x)
    · rw [← List.append_assoc]
      exact hf
    · rw [← List.append_assoc before]
      exact tail

theorem unique (ht : table.Obtained) (h : Segmented table before text fs)
    (k : Segmented table before text' gs) (htext : text = text') : fs = gs := by
  induction h generalizing text' gs with
  | blank hblank =>
    cases k with
    | blank => rfl
    | @found _ blanks taken after g gs hblanks hne hg tail =>
      obtain ⟨x, hx, hvisible⟩ := hg.exists_not_blank ht hne
      rw [hblank x (by simp [htext, hx])] at hvisible
      cases hvisible
  | @found before blanks taken after f fs hblanks hne hf tail ih =>
    cases k with
    | blank hblank =>
      obtain ⟨x, hx, hvisible⟩ := hf.exists_not_blank ht hne
      rw [hblank x (by simp [← htext, hx])] at hvisible
      cases hvisible
    | @found _ blanks' taken' after' g gs hblanks' hne' hg tail' =>
      have hstop := hf.stopsAt_blank ht hne
      have hstop' := hg.stopsAt_blank ht hne'
      obtain rfl : blanks = blanks' := by
        rw [← Text.takeWhile_append_of_stopsAt hblanks hstop, htext,
          Text.takeWhile_append_of_stopsAt hblanks' hstop']
      have hbehind := List.append_cancel_left htext
      obtain ⟨rfl, rfl⟩ := hf.unique ht hg hbehind
      exact congrArg (f :: ·) (ih tail' (List.append_cancel_left hbehind))

end Segmented

/-- Tokenizing gives what the segments of a text are, however they are found. -/
theorem tokenize_of_segmented {table : SymbolTable} {text : String} {fs : List Finding}
    (ht : table.Obtained) (h : Segmented table [] text.toList fs) :
    tokenize table text = (fs.filterMap Finding.lexeme?, fs.filterMap Finding.unrecognized?) := by
  obtain ⟨gs, hgs, heq⟩ := tokenize_segmented ht text
  rw [heq, h.unique ht hgs rfl]

end QueryExpr
