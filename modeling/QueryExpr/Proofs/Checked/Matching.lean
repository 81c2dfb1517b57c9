/-
The matchers on bytes take what the matchers on characters take.

No access of theirs is a fault.  What is sliced off ends where a run of characters ends, and
what is read at fixed places is read behind fronts of as many bytes.
-/
import QueryExpr.Proofs.Checked.Matchers
import QueryExpr.Proofs.Lexer.Matching

namespace QueryExpr

/-- The match with its text measured. -/
def Match.taken (m : Match) : Checked.Taken := ⟨m.length, m.token⟩

namespace Checked

open Text

variable {text front rest : List Char}

theorem textTo_of_append (h : front ++ rest = text) : textTo (byteSize front) text = .ok front :=
  h ▸ textTo_append front rest

theorem isRest_of_append (h : front ++ rest = text) : IsRest text (byteSize front) rest :=
  ⟨front, h.symm, rfl⟩

theorem isRest_afterDigits (text : List Char) :
    IsRest text (byteSize (digits text)) (afterDigits text) :=
  isRest_of_append (digits_append_afterDigits text)

theorem digitCount_eq (text : List Char) : digitCount text = byteSize (digits text) := by
  rw [digitCount, SameClass.isDigit.takeWhile_encoded, length_encoded]
  rfl

theorem textTo_digits (text : List Char) :
    textTo (byteSize (digits text)) text = .ok (digits text) :=
  textTo_of_append (digits_append_afterDigits text)

theorem int_eq (table : SymbolTable) (text : List Char) :
    int table text = .ok ((Matcher.int table text).map Match.taken) := by
  unfold int Matcher.int
  dsimp only
  rw [digitCount_eq, textTo_digits, Outcome.ok_bind]
  by_cases hds : digits text = []
  · rw [if_pos (byteSize_eq_zero.mpr hds), if_pos (List.isEmpty_iff.mpr hds)]
    rfl
  · rw [if_neg (byteSize_eq_zero.not.mpr hds), if_neg (List.isEmpty_iff.not.mpr hds),
      Option.map_map]
    rfl

theorem wordLength_eq (text : List Char) : wordLength text = .ok (byteSize (word text)) := by
  unfold wordLength
  dsimp only
  rw [SameClass.isWordStart.any_head?]
  cases text with
  | nil => rfl
  | cons c rest =>
    rw [word]
    show (if isWordStart c = true then _ else _) = _
    by_cases hc : isWordStart c = true
    · have hascii := SameClass.isWordStart.chars c hc
      have htail : bytesBetween 1 (encoded (c :: rest)).length (encoded (c :: rest)) =
          .ok (encoded rest) := by
        rw [encoded_cons_of_ascii hascii, bytesBetween, if_neg (by simp), if_neg (by simp),
          List.length_cons, Nat.add_sub_cancel, List.drop_one, List.tail_cons, List.take_length]
      rw [if_pos hc, if_pos hc, htail, Outcome.ok_bind, SameClass.isWordPart.takeWhile_encoded,
        length_encoded, byteSize_cons, utf8Size_of_ascii hascii]
    · rw [if_neg hc, if_neg hc]
      rfl

theorem textTo_word (text : List Char) : textTo (byteSize (word text)) text = .ok (word text) := by
  obtain ⟨rest, hrest⟩ : word text <+: text := by
    cases text with
    | nil => exact List.nil_prefix
    | cons c rest =>
      rw [word]
      split
      · exact (List.cons_prefix_cons).mpr ⟨rfl, List.takeWhile_prefix _⟩
      · exact List.nil_prefix
  exact textTo_of_append hrest

theorem identifier_eq (table : SymbolTable) (text : List Char) :
    identifier table text = .ok ((Matcher.identifier table text).map Match.taken) := by
  unfold identifier Matcher.identifier
  dsimp only
  rw [wordLength_eq, Outcome.ok_bind, textTo_word, Outcome.ok_bind]
  by_cases hw : word text = []
  · rw [if_pos (byteSize_eq_zero.mpr hw), if_pos (List.isEmpty_iff.mpr hw)]
    rfl
  · rw [if_neg (byteSize_eq_zero.not.mpr hw), if_neg (List.isEmpty_iff.not.mpr hw)]
    rfl

theorem keyword_eq (table : SymbolTable) (text : List Char) :
    keyword table text = .ok ((Matcher.keyword table text).map Match.taken) := by
  unfold keyword Matcher.keyword
  dsimp only
  rw [wordLength_eq, Outcome.ok_bind, textTo_word, Outcome.ok_bind]
  by_cases hw : word text = []
  · rw [if_pos (byteSize_eq_zero.mpr hw), if_pos (List.isEmpty_iff.mpr hw)]
    rfl
  · rw [if_neg (byteSize_eq_zero.not.mpr hw), if_neg (List.isEmpty_iff.not.mpr hw),
      Option.map_map]
    rfl

theorem symbol_eq (table : SymbolTable) (text : List Char) :
    symbol table text = .ok ((Matcher.symbol table text).map Match.taken) := by
  unfold symbol Matcher.symbol
  have hmeasured : (fun s : String => (⟨s.utf8ByteSize, .symbol s⟩ : Taken)) =
      Match.taken ∘ fun s => ⟨s.toList, .symbol s⟩ := by
    funext s
    rw [← byteSize_toList]
    rfl
  rw [Option.map_map, hmeasured]

theorem signPart_eq (text : List Char) :
    (if text.head?.any (fun c => c == '+' || c == '-') then 1 else 0) =
      byteSize (Decimal.signPart text) := by
  cases text with
  | nil => rfl
  | cons c rest =>
    by_cases hplus : c = '+'
    · subst hplus
      rfl
    · by_cases hminus : c = '-'
      · subst hminus
        rfl
      · have hnone : Decimal.signPart (c :: rest) = [] := by
          rcases Decimal.signPart_cases (c :: rest) with ⟨_, htext, -⟩ | ⟨_, htext, -⟩ | hsign
          · exact absurd (List.cons.inj htext).1 hplus
          · exact absurd (List.cons.inj htext).1 hminus
          · exact hsign
        rw [hnone, if_neg (by simp [hplus, hminus])]
        rfl

theorem exponentLength_eq (text : List Char) :
    exponentLength text =
      .ok (byteSize (((Decimal.exponentPart? text).map Prod.fst).getD [])) := by
  unfold exponentLength
  dsimp only
  have hmarks : SameClass (fun b => b == byte 'e' || b == byte 'E')
      fun c => c == 'e' || c == 'E' := (SameClass.single (by decide)).or (.single (by decide))
  have hsigns : SameClass (fun b => b == byte '+' || b == byte '-')
      fun c => c == '+' || c == '-' := (SameClass.single (by decide)).or (.single (by decide))
  rw [hmarks.any_head?]
  cases text with
  | nil => rfl
  | cons mark rest =>
    by_cases hmark : mark = 'e' ∨ mark = 'E'
    · have hascii := hmarks.chars mark (by simpa using hmark)
      have hone := ((isRest_zero (mark :: rest)).ascii hascii).getElem?_encoded
      have hrest : IsRest (mark :: rest) (1 + byteSize (Decimal.signPart rest))
          (rest.drop (Decimal.signPart rest).length) := by
        apply IsRest.append
        rw [Decimal.signPart_append_drop]
        exact (isRest_zero (mark :: rest)).ascii hascii
      rw [if_pos (by simpa using hmark), hone, hsigns.any_head?, signPart_eq, hrest.textFrom_eq,
        Outcome.ok_bind, digitCount_eq, Decimal.exponentPart?_mark hmark]
      by_cases hds : digits (rest.drop (Decimal.signPart rest).length) = []
      · rw [if_pos (byteSize_eq_zero.mpr hds), if_pos hds]
        rfl
      · rw [if_neg (byteSize_eq_zero.not.mpr hds), if_neg hds]
        show _ = Except.ok (byteSize (mark :: (Decimal.signPart rest ++ digits _)))
        rw [byteSize_cons, utf8Size_of_ascii hascii, byteSize_append, Nat.add_assoc]
    · have hnone : Decimal.exponentPart? (mark :: rest) = none := if_neg hmark
      rw [if_neg (by simpa using hmark), hnone]
      rfl

theorem mantissaLength_eq (text : List Char) :
    mantissaLength text =
      .ok ((Decimal.mantissa? text).map fun m => (byteSize m.text, m.hasPoint)) := by
  have hwhole := isRest_afterDigits text
  unfold mantissaLength
  dsimp only
  rw [digitCount_eq, hwhole.textFrom_eq, Outcome.ok_bind]
  by_cases hpoint : (afterDigits text).head? = some '.'
  · obtain ⟨rest, hrest⟩ := List.head?_eq_some_iff.mp hpoint
    rw [hrest] at hwhole
    rw [if_pos hpoint, (hwhole.ascii (by decide)).textFrom_eq, Outcome.ok_bind, digitCount_eq,
      Decimal.mantissa?_point hrest]
    simp only [byteSize_eq_zero]
    split
    · rfl
    · have hsize : byteSize (digits text ++ '.' :: digits rest) =
          byteSize (digits text) + 1 + byteSize (digits rest) := by
        rw [byteSize_append, byteSize_cons, ← Nat.add_assoc]
        rfl
      simp [Decimal.Mantissa.hasPoint, hsize]
  · rw [if_neg hpoint, Decimal.mantissa?_noPoint hpoint]
    simp only [byteSize_eq_zero]
    split
    · rfl
    · simp [Decimal.Mantissa.hasPoint]

theorem float_eq (table : SymbolTable) (text : List Char) :
    float table text = .ok ((Matcher.float table text).map Match.taken) := by
  unfold float Matcher.float
  rw [mantissaLength_eq, Outcome.ok_bind]
  cases hm : Decimal.mantissa? text with
  | none => rfl
  | some m =>
    obtain ⟨htext, hmantissa, -⟩ := Decimal.mantissa?_cases hm
    dsimp only [Option.map_some]
    rw [(isRest_of_append htext.symm).textFrom_eq, Outcome.ok_bind, exponentLength_eq,
      Outcome.ok_bind]
    rw [Option.bind_eq_bind, Option.bind_some]
    cases hpart : Decimal.exponentPart? m.rest with
    | none =>
      cases hpoint : m.hasPoint with
      | false => rfl
      | true =>
        have hfront : textTo (byteSize m.text + 0) text = .ok m.text :=
          textTo_of_append htext.symm
        have hvalue := Decimal.float?_eq hmantissa (Or.inl ⟨rfl, rfl⟩)
        rw [List.append_nil] at hvalue
        rw [if_neg (by simp)]
        dsimp only [Option.map_none, Option.getD_none, byteSize_nil]
        rw [hfront, Outcome.ok_bind, hvalue]
        rfl
    | some found =>
      obtain ⟨part, e⟩ := found
      obtain ⟨after, hafter, hexponent, -⟩ := Decimal.exponentPart?_sound hpart
      have hne : byteSize part ≠ 0 := by
        obtain ⟨mark, ds, rfl, -⟩ := hexponent.exists_mark
        exact byteSize_eq_zero.not.mpr (List.cons_ne_nil mark ds)
      have hfront : textTo (byteSize m.text + byteSize part) text = .ok (m.text ++ part) := by
        rw [← byteSize_append]
        have hsplit : (m.text ++ part) ++ after = text := by
          rw [List.append_assoc, ← hafter, ← htext]
        exact textTo_of_append hsplit
      dsimp only [Option.map_some, Option.getD_some]
      rw [if_neg (fun h => hne h.2), hfront, Outcome.ok_bind,
        Decimal.float?_eq hmantissa (Or.inr hexponent), ← byteSize_append]
      rfl

/-- The search for the closing quote passes over other bytes. -/
theorem closing_append {bytes run others : List UInt8} {i : Nat} (d : Bool)
    (hbytes : bytes.drop i = run ++ others) (hrun : ∀ b ∈ run, b ≠ byte '\'') :
    closing bytes i d = closing bytes (i + run.length) d := by
  induction run generalizing i with
  | nil => rfl
  | cons b run ih =>
    obtain ⟨hb, hrun⟩ := List.forall_mem_cons.mp hrun
    have hat : bytes[i]? = some b := by
      rw [← Nat.add_zero i, ← List.getElem?_drop, hbytes]
      rfl
    have hlt : i < bytes.length := (List.getElem?_eq_some_iff.mp hat).1
    have hnext : bytes.drop (i + 1) = run ++ others := by
      rw [← List.drop_drop, hbytes]
      rfl
    rw [closing, if_pos hlt, byteAt_eq_ok_iff.mpr hat, Outcome.ok_bind, if_neg hb, ih hnext hrun,
      List.length_cons, Nat.add_assoc, Nat.add_comm 1]

theorem closing_skip {c : Char} {i : Nat} (hc : c ≠ '\'') (h : IsRest text i (c :: rest))
    (d : Bool) : closing (encoded text) i d = closing (encoded text) (i + c.utf8Size) d := by
  have hclass : SameClass (· == byte '\'') (· == '\'') := .single (by decide)
  have hrun : ∀ b ∈ String.utf8EncodeChar c, b ≠ byte '\'' := by
    rcases Nat.lt_or_ge c.toNat 128 with hascii | hle
    · rw [encodeChar_of_ascii hascii]
      refine List.forall_mem_singleton.mpr ?_
      simpa [hc] using hclass.ascii c hascii
    · intro b hb
      simpa using (hclass.eq_false_of_le hle).2 b hb
  have hbytes := h.drop_encoded
  rw [encoded_cons] at hbytes
  rw [closing_append d hbytes hrun, String.length_utf8EncodeChar]

theorem closing_quote {i : Nat} (h : IsRest text i ('\'' :: rest)) (d : Bool) :
    closing (encoded text) i d =
      if rest.head? = some '\'' then closing (encoded text) (i + 2) true
      else .ok (some (i, d)) := by
  have hquote := h.getElem?_encoded
  rw [encoded_cons_of_ascii (by decide), List.head?_cons] at hquote
  have hnext := (h.ascii (by decide)).getElem?_encoded
  rw [closing, if_pos (List.getElem?_eq_some_iff.mp hquote).1, byteAt_eq_ok_iff.mpr hquote,
    Outcome.ok_bind, if_pos rfl, hnext]
  simp only [head?_encoded_eq_some (show '\''.toNat < 128 by decide)]

/-- The closing quote is found where the reading of characters finds it, and quotes were doubled
before it when the value has a quote. -/
theorem closing_eq {i : Nat} (h : IsRest text i rest) (d : Bool) :
    closing (encoded text) i d =
      .ok ((Matcher.stringBody? rest).map fun (taken, value) =>
        (i + byteSize taken - 1, d || value.contains '\'')) := by
  -- the cases are the end of the text, a doubled quote, the closing quote and another character
  induction rest using Matcher.stringBody?.induct generalizing i d with
  | case1 =>
    have hsize := h.byteSize_eq
    rw [closing, if_neg (by rw [length_encoded, hsize]; exact Nat.lt_irrefl i)]
    rfl
  | case2 rest ih =>
    have hnext := ih ((h.ascii (by decide)).ascii (by decide)) true
    rw [closing_quote h, if_pos List.head?_cons, hnext, Matcher.stringBody?, Option.map_map]
    congr 2
    funext found
    obtain ⟨taken, value⟩ := found
    refine Prod.ext ?_ ?_
    · show i + 2 + byteSize taken - 1 = i + (1 + (1 + byteSize taken)) - 1
      omega
    · simp
  | case3 rest hquote =>
    rw [closing_quote h, if_neg, Matcher.stringBody?]
    · show _ = Except.ok (some (i + 1 - 1, d || false))
      rw [Nat.add_sub_cancel, Bool.or_false]
    · exact hquote
    · intro hhead
      obtain ⟨others, hothers⟩ := List.head?_eq_some_iff.mp hhead
      exact hquote others hothers
  | case4 c rest hpair hquote ih =>
    have hc : c ≠ '\'' := hquote
    rw [closing_skip hc h, ih h.cons, Matcher.stringBody?]
    · rw [Option.map_map]
      congr 2
      funext found
      obtain ⟨taken, value⟩ := found
      refine Prod.ext ?_ ?_
      · show i + c.utf8Size + byteSize taken - 1 = i + byteSize (c :: taken) - 1
        rw [byteSize_cons, Nat.add_assoc]
      · simp [hc.symm]
    · exact hpair
    · exact hquote

theorem undoubled_doubled (value : List Char) : undoubled (doubled value) = value := by
  induction value with
  | nil => rfl
  | cons c value ih =>
    rw [doubled]
    split
    · rename_i hc
      rw [undoubled, ih, hc]
    · rename_i hc
      rw [undoubled, ih]
      exact fun _ hquote => absurd hquote hc

theorem doubled_of_not_mem {value : List Char} (h : '\'' ∉ value) : doubled value = value := by
  induction value with
  | nil => rfl
  | cons c value ih =>
    rw [List.mem_cons, not_or] at h
    rw [doubled, if_neg (Ne.symm h.1), ih h.2]

theorem string_eq (table : SymbolTable) (text : List Char) :
    string table text = .ok ((Matcher.string table text).map Match.taken) := by
  have hhead : (encoded text).head? = some (byte '\'') ↔ text.head? = some '\'' :=
    head?_encoded_eq_some (by decide)
  unfold string
  dsimp only
  by_cases hquote : text.head? = some '\''
  · obtain ⟨rest, rfl⟩ := List.head?_eq_some_iff.mp hquote
    have hbehind : IsRest ('\'' :: rest) 1 rest := (isRest_zero _).ascii (by decide)
    rw [if_pos (hhead.mpr hquote), closing_eq hbehind, Outcome.ok_bind]
    show _ = Except.ok (Option.map Match.taken (Option.map _ (Matcher.stringBody? rest)))
    cases hbody : Matcher.stringBody? rest with
    | none => rfl
    | some found =>
      obtain ⟨taken, value⟩ := found
      obtain ⟨rfl, after, rfl, -⟩ := Matcher.stringBody?_sound hbody
      have hone : byteSize ['\''] = 1 := rfl
      have hplace : 1 + byteSize (doubled value ++ ['\'']) - 1 = 1 + byteSize (doubled value) := by
        rw [byteSize_append, hone]
        omega
      have hlength : 1 + byteSize (doubled value) + 1 =
          byteSize ('\'' :: (doubled value ++ ['\''])) := by
        rw [← List.singleton_append, byteSize_append, byteSize_append, hone]
        omega
      have hvalue : (if (false || value.contains '\'') = true then undoubled (doubled value)
          else doubled value) = value := by
        rw [Bool.false_or]
        split
        · exact undoubled_doubled value
        · rename_i hnone
          exact doubled_of_not_mem (by simpa using hnone)
      rw [List.append_assoc] at hbehind
      dsimp only [Option.map_some]
      rw [hplace, List.append_assoc, hbehind.textBetween_append, Outcome.ok_bind, hvalue, hlength]
      rfl
  · have hnone : Matcher.string table text = none := by
      unfold Matcher.string
      split
      · exact absurd List.head?_cons hquote
      · rfl
    rw [if_neg (fun h => hquote (hhead.mp h)), hnone]
    rfl

end Checked
end QueryExpr
