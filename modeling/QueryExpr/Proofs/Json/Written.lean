/-
Strings and lists of strings are read as they were written.

A reader that is given at least as many steps as the written text has characters comes to
the end of it.  Escapes take one step each, whatever their length.
-/
import QueryExpr.Json.Wanted

namespace QueryExpr
namespace Json

theorem skipBlanks_cons {c : Char} (h : isBlank c = false) (rest : List Char) :
    skipBlanks (c :: rest) = c :: rest := by
  rw [skipBlanks, List.dropWhile_cons_of_neg (by simp [h])]

theorem hexNumber?_hexDigit :
    ∀ n < 0x20, hexNumber? '0' '0' (hexDigit (n / 16)) (hexDigit (n % 16)) = some n := by
  decide

theorem codeUnit_control {c : Char} (h : c.toNat < 0x20) (rest : List Char) :
    codeUnit ('0' :: '0' :: hexDigit (c.toNat / 16) :: hexDigit (c.toNat % 16) :: rest) =
      .ok (c, rest) := by
  have hlow : isLowSurrogate c.toNat = false := by
    rw [isLowSurrogate, Bool.and_eq_false_iff, decide_eq_false_iff_not]
    omega
  have hhigh : isHighSurrogate c.toNat = false := by
    rw [isHighSurrogate, Bool.and_eq_false_iff, decide_eq_false_iff_not]
    omega
  have hdigits : fourHex ('0' :: '0' :: hexDigit (c.toNat / 16) :: hexDigit (c.toNat % 16) ::
      rest) = .ok (c.toNat, rest) := by
    rw [fourHex]
    simp only [hexNumber?_hexDigit c.toNat h]
  rw [codeUnit, hdigits]
  show (if isLowSurrogate c.toNat = true then _ else _) = _
  rw [hlow, hhigh, Char.ofNat_toNat]
  rfl

/-- One step reads one character, escaped or not. -/
theorem stringBody_escaped (steps : Nat) (c : Char) (rest : List Char) :
    stringBody (steps + 1) (escaped c ++ rest) =
      (stringBody steps rest).map fun (cs, rest) => (c :: cs, rest) := by
  have hstep : ∀ text, escape text = .ok (c, rest) → stringBody (steps + 1) ('\\' :: text) =
      (stringBody steps rest).map fun (cs, rest) => (c :: cs, rest) := by
    intro text htext
    rw [stringBody, if_neg (by decide), if_pos rfl, htext]
    rfl
  unfold escaped
  by_cases hquote : c = '"'
  · subst hquote
    exact hstep _ rfl
  by_cases hslash : c = '\\'
  · subst hslash
    exact hstep _ rfl
  by_cases hback : c = '\x08'
  · subst hback
    exact hstep _ rfl
  by_cases hfeed : c = '\x0c'
  · subst hfeed
    exact hstep _ rfl
  by_cases hline : c = '\n'
  · subst hline
    exact hstep _ rfl
  by_cases hreturn : c = '\r'
  · subst hreturn
    exact hstep _ rfl
  by_cases htab : c = '\t'
  · subst htab
    exact hstep _ rfl
  rw [if_neg hquote, if_neg hslash, if_neg hback, if_neg hfeed, if_neg hline, if_neg hreturn,
    if_neg htab]
  by_cases hcontrol : c.toNat < 0x20
  · rw [if_pos hcontrol]
    exact hstep _ (codeUnit_control hcontrol rest)
  · rw [if_neg hcontrol, List.singleton_append, stringBody, if_neg hquote, if_neg hslash,
      if_neg hcontrol]
    rfl

theorem stringBody_flatMap_escaped {steps : Nat} {cs : List Char} (h : cs.length < steps)
    (rest : List Char) :
    stringBody steps (cs.flatMap escaped ++ '"' :: rest) = .ok (cs, rest) := by
  induction cs generalizing steps with
  | nil =>
    obtain ⟨steps, rfl⟩ := Nat.exists_eq_add_one.mpr h
    rfl
  | cons c cs ih =>
    obtain ⟨steps, rfl⟩ := Nat.exists_eq_add_one.mpr (Nat.zero_lt_of_lt h)
    rw [List.flatMap_cons, List.append_assoc, stringBody_escaped,
      ih (Nat.lt_of_succ_lt_succ h)]
    rfl

theorem length_le_flatMap_escaped (cs : List Char) : cs.length ≤ (cs.flatMap escaped).length := by
  induction cs with
  | nil => exact Nat.le_refl 0
  | cons c cs ih =>
    have hescaped : 1 ≤ (escaped c).length := by
      unfold escaped
      repeat' split
      all_goals simp
    rw [List.flatMap_cons, List.length_append, List.length_cons]
    omega

theorem length_le_writeString (s : String) : s.toList.length + 2 ≤ (writeString s).length := by
  have h := length_le_flatMap_escaped s.toList
  simp only [writeString, List.length_cons, List.length_append]
  omega

theorem stringBody_writeString {steps : Nat} {s : String} (h : s.toList.length < steps)
    (rest : List Char) :
    ∃ body, writeString s ++ rest = '"' :: body ∧ stringBody steps body = .ok (s.toList, rest) := by
  refine ⟨s.toList.flatMap escaped ++ '"' :: rest, ?_, stringBody_flatMap_escaped h rest⟩
  simp [writeString]

theorem stringValue_writeString {steps : Nat} {s : String} (h : s.toList.length < steps)
    (rest : List Char) : stringValue steps (writeString s ++ rest) = .ok (s, rest) := by
  obtain ⟨body, hbody, hread⟩ := stringBody_writeString h rest
  rw [hbody, stringValue, skipBlanks_cons (by decide)]
  show (stringBody steps body).map _ = _
  rw [hread]
  show Except.ok (String.ofList s.toList, rest) = _
  rw [String.ofList_toList]

/-- Further strings of a list, each behind a comma. -/
def behindCommas (ss : List String) : List Char := ss.flatMap fun s => ',' :: writeString s

theorem commaSeparated_cons (part : List Char) (parts : List (List Char)) :
    commaSeparated (part :: parts) = part ++ parts.flatMap (',' :: ·) := by
  induction parts generalizing part with
  | nil => simp [commaSeparated]
  | cons next parts ih =>
    have hnext : commaSeparated (part :: next :: parts) =
        part ++ ',' :: commaSeparated (next :: parts) := by
      simp [commaSeparated, List.intercalate]
    rw [hnext, ih, List.flatMap_cons, List.cons_append]

theorem writeItems_string (ss : List String) :
    writeItems (ss.map Json.string) = ss.map writeString := by
  induction ss with
  | nil => rfl
  | cons s ss ih => rw [List.map_cons, List.map_cons, ← ih]; rfl

theorem write_strings_cons (s : String) (ss : List String) :
    write (.array ((s :: ss).map .string)) =
      '[' :: (writeString s ++ behindCommas ss ++ [']']) := by
  show '[' :: (commaSeparated (writeItems _) ++ [']']) = _
  rw [writeItems_string, List.map_cons, commaSeparated_cons, List.flatMap_map]
  rfl

/-- The first string of a list stands alone, every other one behind a comma. -/
theorem nextItem_writeString (s : String) (rest : List Char) :
    nextItem true (writeString s ++ rest) = .ok (.entry (writeString s ++ rest)) ∧
      nextItem false (',' :: (writeString s ++ rest)) = .ok (.entry (writeString s ++ rest)) :=
  ⟨rfl, rfl⟩

theorem stringItems_behindCommas {steps : Nat} {ss : List String}
    (h : (behindCommas ss).length < steps) (rest : List Char) :
    stringItems steps false (behindCommas ss ++ ']' :: rest) = .ok (ss, rest) := by
  induction ss generalizing steps with
  | nil =>
    obtain ⟨steps, rfl⟩ := Nat.exists_eq_add_one.mpr (Nat.zero_lt_of_lt h)
    rfl
  | cons s ss ih =>
    obtain ⟨steps, rfl⟩ := Nat.exists_eq_add_one.mpr (Nat.zero_lt_of_lt h)
    have htext : behindCommas (s :: ss) ++ ']' :: rest =
        ',' :: (writeString s ++ (behindCommas ss ++ ']' :: rest)) := by
      simp [behindCommas]
    have hsize := length_le_writeString s
    have hlength : (behindCommas (s :: ss)).length =
        1 + (writeString s).length + (behindCommas ss).length := by
      simp only [behindCommas, List.flatMap_cons, List.length_append, List.length_cons]
      omega
    rw [htext, stringItems, (nextItem_writeString s _).2]
    show (stringValue steps (writeString s ++ _) >>= _) = _
    rw [stringValue_writeString (by omega)]
    show (stringItems steps false (behindCommas ss ++ _) >>= _) = _
    rw [ih (by omega)]
    rfl

theorem stringList_write {steps : Nat} {ss : List String}
    (h : (write (.array (ss.map .string))).length ≤ steps) (rest : List Char) :
    stringList steps (write (.array (ss.map .string)) ++ rest) = .ok (ss, rest) := by
  cases ss with
  | nil =>
    obtain ⟨steps, rfl⟩ := Nat.exists_eq_add_one.mpr (Nat.zero_lt_of_lt h)
    rfl
  | cons s ss =>
    have hsize := length_le_writeString s
    rw [write_strings_cons] at h ⊢
    simp only [List.length_cons, List.length_append] at h
    obtain ⟨steps, rfl⟩ := Nat.exists_eq_add_one.mpr (Nat.zero_lt_of_lt h)
    have htext : writeString s ++ behindCommas ss ++ [']'] ++ rest =
        writeString s ++ (behindCommas ss ++ ']' :: rest) := by
      simp
    show stringItems (steps + 1) true (writeString s ++ behindCommas ss ++ [']'] ++ rest) = _
    rw [htext, stringItems, (nextItem_writeString s _).1]
    show (stringValue steps (writeString s ++ _) >>= _) = _
    rw [stringValue_writeString (by omega)]
    show (stringItems steps false (behindCommas ss ++ _) >>= _) = _
    rw [stringItems_behindCommas (by omega)]
    rfl

end Json
end QueryExpr
