/-
Days and times read at fixed places.

The places are right because everything in front of them is of ASCII once the conditions on
it hold.  Before that nothing is read beyond the bytes that were counted.
-/
import QueryExpr.Proofs.Checked.Matching
import QueryExpr.Proofs.Text.Numerals

namespace QueryExpr
namespace Checked

open Text

variable {text rest after ds year month day : List Char} {i width n : Nat}

theorem nextDigit_byte {c : Char} (hc : c.isDigit = true) (hn : (n + 1) * 10 ≤ 10 ^ 9) :
    nextDigit n (byte c) = .ok (10 * n + digitValue c) := by
  obtain ⟨hlow, hhigh⟩ := toNat_of_isDigit hc
  have hbyte : (byte c).toNat = c.toNat := toNat_byte (by omega)
  have hvalue : digitValue c = c.toNat - 48 := rfl
  rw [nextDigit, word32, if_pos (by omega), Outcome.ok_bind, minus, if_pos (by omega),
    Outcome.ok_bind, hbyte, word32, if_pos (by omega), hvalue, Nat.mul_comm n]

/-- Nine digits are a number of 32 bits.  The bound says so of the digits that are left with
those read before. -/
theorem foldlM_nextDigit (hds : AllDigits ds) (hn : (n + 1) * 10 ^ ds.length ≤ 10 ^ 9) :
    (encoded ds).foldlM nextDigit n = .ok (ds.foldl (fun n c => 10 * n + digitValue c) n) := by
  induction ds generalizing n with
  | nil => rfl
  | cons c ds ih =>
    obtain ⟨hc, hds⟩ := List.forall_mem_cons.mp hds
    obtain ⟨hlow, hhigh⟩ := toNat_of_isDigit hc
    have hvalue : digitValue c ≤ 9 := by
      have : digitValue c = c.toNat - 48 := rfl
      omega
    have hten : (n + 1) * 10 * 10 ^ ds.length ≤ 10 ^ 9 := by
      rwa [List.length_cons, Nat.pow_succ', ← Nat.mul_assoc] at hn
    have hstep : (n + 1) * 10 ≤ 10 ^ 9 :=
      Nat.le_trans (Nat.le_mul_of_pos_right _ (Nat.pow_pos (by decide))) hten
    have hnext : 10 * n + digitValue c + 1 ≤ (n + 1) * 10 := by omega
    have hrest := ih hds (Nat.le_trans (Nat.mul_le_mul_right _ hnext) hten)
    rw [encoded_cons_of_ascii (by omega), List.foldlM_cons, nextDigit_byte hc hstep,
      Outcome.ok_bind, hrest, List.foldl_cons]

theorem number_encoded (hds : AllDigits ds) (hlength : ds.length ≤ 9) :
    number (encoded ds) = .ok (numeral ds) := by
  apply foldlM_nextDigit hds
  rw [Nat.zero_add, Nat.one_mul]
  exact Nat.pow_le_pow_right (by decide) hlength

/-- The conditions on three numbers hold where such numbers stand. -/
theorem numbersAt_eq_ok_true {sep : Char} (h : IsRest text i rest) (hsep : sep.toNat < 128) :
    numbersAt sep width i (encoded text) = .ok true ↔
      ∃ a b c after, rest = a ++ sep :: (b ++ sep :: (c ++ after)) ∧ IsNumber width a ∧
        IsNumber 2 b ∧ IsNumber 2 c := by
  rw [numbersAt, allOf_eq_ok_true]
  simp only [List.forall_mem_cons, List.not_mem_nil, false_implies, implies_true, and_true]
  constructor
  · rintro ⟨hfirst, hsep₁, hsecond, hsep₂, hthird⟩
    obtain ⟨a, rest, rfl, ha⟩ := (h.allBetween_digits width).mp hfirst
    have h₁ := h.number ha
    obtain ⟨rest, rfl⟩ := (h₁.holdsAt_byte hsep).mp hsep₁
    have h₂ := h₁.ascii hsep
    obtain ⟨b, rest, rfl, hb⟩ := (h₂.allBetween_digits 2).mp hsecond
    have h₃ := h₂.number hb
    obtain ⟨rest, rfl⟩ := (h₃.holdsAt_byte hsep).mp hsep₂
    have h₄ := h₃.ascii hsep
    obtain ⟨c, rest, rfl, hc⟩ := (h₄.allBetween_digits 2).mp hthird
    exact ⟨a, b, c, rest, rfl, ha, hb, hc⟩
  · rintro ⟨a, b, c, after, rfl, ha, hb, hc⟩
    have h₁ := h.number ha
    have h₂ := h₁.ascii hsep
    have h₃ := h₂.number hb
    have h₄ := h₃.ascii hsep
    exact ⟨(h.allBetween_digits width).mpr ⟨a, _, rfl, ha⟩, (h₁.holdsAt_byte hsep).mpr ⟨_, rfl⟩,
      (h₂.allBetween_digits 2).mpr ⟨b, _, rfl, hb⟩, (h₃.holdsAt_byte hsep).mpr ⟨_, rfl⟩,
      (h₄.allBetween_digits 2).mpr ⟨c, _, rfl, hc⟩⟩

/-- The conditions can be asked where there are enough bytes. -/
theorem exists_numbersAt (sep : Char) {bytes : List UInt8} (h : i + width + 6 ≤ bytes.length) :
    ∃ v, numbersAt sep width i bytes = .ok v := by
  apply exists_allOf
  simp only [List.forall_mem_cons, List.not_mem_nil, false_implies, implies_true, and_true]
  exact ⟨exists_allBetween _ (by omega) (by omega), exists_holdsAt _ (by omega),
    exists_allBetween _ (by omega) (by omega), exists_holdsAt _ (by omega),
    exists_allBetween _ (by omega) (by omega)⟩

theorem numberBetween_eq (h : IsRest text i (ds ++ rest)) (hds : IsNumber width ds)
    (hwidth : width ≤ 9) : numberBetween i (i + width) (encoded text) = .ok (numeral ds) := by
  have hbytes := h.bytesBetween_append
  rw [hds.byteSize_eq] at hbytes
  rw [numberBetween, hbytes, Outcome.ok_bind]
  exact number_encoded hds.allDigits (hds.length_eq ▸ hwidth)

theorem day?_append (hyear : IsNumber 4 year) (hmonth : IsNumber 2 month) (hday : IsNumber 2 day)
    (after : List Char) :
    Matcher.day? (year ++ '-' :: (month ++ '-' :: (day ++ after))) =
      (Date.of? (numeral year) (numeral month) (numeral day)).map fun d => (d, after) := by
  have hread : ∀ {width : Nat} {ds : List Char}, IsNumber width ds → ∀ rest,
      fixedDigits? width (ds ++ rest) = some (numeral ds, rest) :=
    fun hds rest => fixedDigits?_eq_some_iff.mpr ⟨_, rfl, hds, rfl⟩
  have hdash : ∀ rest, literal? '-' ('-' :: rest) = some rest := fun rest => rfl
  simp only [Matcher.day?, hread hyear, hread hmonth, hread hday, hdash, Option.bind_eq_bind,
    Option.bind_some]
  cases Date.of? (numeral year) (numeral month) (numeral day) with
  | none => rfl
  | some d => rfl

theorem dayPrefix_eq (text : List Char) :
    dayPrefix text = .ok ((Matcher.day? text).map Prod.fst) := by
  have hstart := isRest_zero text
  unfold dayPrefix
  dsimp only
  by_cases hlength : (encoded text).length < 10
  · have hnone : Matcher.day? text = none := by
      rw [Option.eq_none_iff_forall_ne_some]
      rintro ⟨d, rest⟩ hday
      obtain ⟨t, rfl, hspells⟩ := Matcher.day?_eq_some_iff.mp hday
      have hsize := length_le_byteSize t
      rw [hspells.length_eq] at hsize
      rw [length_encoded, byteSize_append] at hlength
      omega
    rw [if_pos hlength, hnone]
    rfl
  · rw [if_neg hlength]
    obtain ⟨shaped, hshaped⟩ : ∃ v, numbersAt '-' 4 0 (encoded text) = .ok v :=
      exists_numbersAt '-' (by omega)
    rw [hshaped, Outcome.ok_bind]
    cases shaped with
    | true =>
      obtain ⟨year, month, day, after, rfl, hyear, hmonth, hday⟩ :=
        (numbersAt_eq_ok_true hstart (by decide)).mp hshaped
      have h₂ := (hstart.number hyear).ascii (by decide)
      have h₄ := (h₂.number hmonth).ascii (by decide)
      have hread₁ : numberBetween 0 4 _ = _ := numberBetween_eq hstart hyear (by decide)
      have hread₂ : numberBetween 5 7 _ = _ := numberBetween_eq h₂ hmonth (by decide)
      have hread₃ : numberBetween 8 10 _ = _ := numberBetween_eq h₄ hday (by decide)
      rw [if_pos rfl, hread₁, hread₂, hread₃, day?_append hyear hmonth hday, Option.map_map]
      show Except.ok (Date.of? (numeral year) (numeral month) (numeral day)) = _
      cases Date.of? (numeral year) (numeral month) (numeral day) with
      | none => rfl
      | some d => rfl
    | false =>
      have hnone : Matcher.day? text = none := by
        rw [Option.eq_none_iff_forall_ne_some]
        rintro ⟨d, rest⟩ hfound
        obtain ⟨t, rfl, @⟨year, month, day, _, hyear, hmonth, hday, -⟩⟩ :=
          Matcher.day?_eq_some_iff.mp hfound
        have hshape : numbersAt '-' 4 0 (encoded _) = .ok true :=
          (numbersAt_eq_ok_true hstart (by decide)).mpr
            ⟨year, month, day, rest, by simp, hyear, hmonth, hday⟩
        cases hshaped.symm.trans hshape
      rw [hnone]
      rfl

theorem followedByDigit_eq (h : IsRest text i rest) :
    followedByDigit text i = startsWithDigit rest := by
  rw [followedByDigit, h.getElem?_encoded, SameClass.isDigit.any_head?]
  cases rest with
  | nil => rfl
  | cons c rest => rfl

theorem byteSize_day {d : Date} (h : SpellsDay ds d) : byteSize ds = 10 := by
  obtain ⟨hyear, hmonth, hday, -⟩ := h
  simp only [byteSize_append, byteSize_cons, hyear.byteSize_eq, hmonth.byteSize_eq,
    hday.byteSize_eq]
  rfl

theorem date_eq (table : SymbolTable) (text : List Char) :
    date table text = .ok ((Matcher.date table text).map Match.taken) := by
  unfold date Matcher.date
  rw [dayPrefix_eq, Outcome.ok_bind]
  cases hday : Matcher.day? text with
  | none => rfl
  | some found =>
    obtain ⟨d, rest⟩ := found
    obtain ⟨t, rfl, hspells⟩ := Matcher.day?_eq_some_iff.mp hday
    have hsize := byteSize_day hspells
    have hbehind : IsRest (t ++ rest) 10 rest := hsize ▸ isRest_of_append rfl
    have htake : (t ++ rest).take 10 = t := by rw [← hspells.length_eq, List.take_left]
    dsimp only [Option.map_some, Option.bind_eq_bind, Option.bind_some]
    rw [followedByDigit_eq hbehind, htake]
    split
    · rfl
    · show _ = Except.ok (some (Taken.mk (byteSize t) (.date d)))
      rw [hsize]

/-- The nine digits that are kept are a fraction of a second in billionths. -/
theorem billionths_mul (ds : List Char) :
    Matcher.billionths ds * 10 ^ (ds.take 9).length = numeral (ds.take 9) * 10 ^ 9 := by
  have hlength : (ds.take 9).length ≤ 9 := List.length_take_le 9 ds
  show numeral (ds.take 9) * 10 ^ (9 - (ds.take 9).length) * 10 ^ (ds.take 9).length = _
  rw [Nat.mul_assoc, ← Nat.pow_add, Nat.sub_add_cancel hlength]

theorem billionths_lt (hds : AllDigits ds) : Matcher.billionths ds < 10 ^ 9 := by
  have hlt : numeral (ds.take 9) < 10 ^ (ds.take 9).length := numeral_lt ⟨rfl, hds.take 9⟩
  have hscaled := Nat.mul_lt_mul_of_pos_right hlt (show 0 < 10 ^ 9 by decide)
  rw [← billionths_mul, Nat.mul_comm] at hscaled
  exact Nat.lt_of_mul_lt_mul_left hscaled

/-- A fraction of a second and its length are found behind the nineteen bytes in front. -/
theorem fraction_eq (h : IsRest text 19 rest) :
    fraction text =
      .ok (19 + byteSize (fractionPart (Matcher.fractionDigits rest)),
        Matcher.billionths (Matcher.fractionDigits rest)) := by
  unfold fraction
  dsimp only
  rw [h.getElem?_encoded]
  by_cases hpoint : rest.head? = some '.'
  · rw [if_pos ((head?_encoded_eq_some (by decide)).mpr hpoint)]
    obtain ⟨behind, rfl⟩ := List.head?_eq_some_iff.mp hpoint
    have hbehind := h.ascii (by decide)
    have hdigits := allDigits_digits behind
    have hsize := SameClass.isDigit.byteSize_eq hdigits
    rw [hbehind.textFrom_eq, Outcome.ok_bind, digitCount_eq]
    show _ = Except.ok (19 + byteSize (fractionPart (digits behind)),
      Matcher.billionths (digits behind))
    rw [← digits_append_afterDigits behind] at hbehind
    generalize digits behind = ds at hbehind hdigits hsize ⊢
    by_cases hds : ds = []
    · subst hds
      rfl
    · have hpos : 0 < byteSize ds := Nat.pos_of_ne_zero (byteSize_eq_zero.not.mpr hds)
      have hkept := hdigits.take 9
      have hlength : (ds.take 9).length ≤ 9 := List.length_take_le 9 ds
      have hsizeKept : byteSize (ds.take 9) = min (byteSize ds) 9 := by
        rw [SameClass.isDigit.byteSize_eq hkept, List.length_take, hsize, Nat.min_comm]
      rw [← List.take_append_drop 9 ds, List.append_assoc] at hbehind
      have hbytes := hbehind.bytesBetween_append
      rw [hsizeKept] at hbytes
      have hzeros : minus 9 (encoded (ds.take 9)).length = .ok (9 - (ds.take 9).length) := by
        rw [length_encoded, SameClass.isDigit.byteSize_eq hkept, minus, if_pos hlength]
      have hunit : word32 (Nat.pow 10 (9 - (ds.take 9).length)) =
          .ok (Nat.pow 10 (9 - (ds.take 9).length)) := by
        have hle : Nat.pow 10 (9 - (ds.take 9).length) ≤ Nat.pow 10 9 :=
          Nat.pow_le_pow_right (by decide) (Nat.sub_le _ _)
        rw [word32, if_pos (Nat.lt_of_le_of_lt hle (by decide))]
      have hnanos : word32 (numeral (ds.take 9) * Nat.pow 10 (9 - (ds.take 9).length)) =
          .ok (Matcher.billionths ds) := by
        show word32 (Matcher.billionths ds) = _
        rw [word32, if_pos (Nat.lt_trans (billionths_lt hdigits) (by decide))]
      rw [if_pos hpos, hbytes, Outcome.ok_bind, number_encoded hkept hlength, Outcome.ok_bind,
        hzeros, Outcome.ok_bind, hunit, Outcome.ok_bind, hnanos, Outcome.ok_bind, fractionPart,
        if_neg hds, byteSize_cons, ← Nat.add_assoc]
      rfl
  · have hnone : Matcher.fractionDigits rest = [] := by
      unfold Matcher.fractionDigits
      split
      · exact absurd List.head?_cons hpoint
      · rfl
    rw [if_neg ((head?_encoded_eq_some (by decide)).not.mpr hpoint), hnone]
    rfl

theorem byteSize_clock {hour minute second : Nat} (h : SpellsClock ds hour minute second) :
    byteSize ds = 8 := by
  obtain ⟨hhour, hminute, hsecond⟩ := h
  simp only [byteSize_append, byteSize_cons, hhour.byteSize_eq, hminute.byteSize_eq,
    hsecond.byteSize_eq]
  rfl

theorem time?_eq_some_iff {hour minute second : Nat} :
    (Matcher.dayEnd? rest).bind Matcher.clock? = some ((hour, minute, second), after) ↔
      ∃ sep clock, (sep = 'T' ∨ sep = ' ') ∧ rest = sep :: (clock ++ after) ∧
        SpellsClock clock hour minute second := by
  simp only [Option.bind_eq_some_iff, Matcher.dayEnd?_eq_some_iff, Matcher.clock?_eq_some_iff]
  constructor
  · rintro ⟨_, ⟨sep, rfl, hsep⟩, clock, rfl, hclock⟩
    exact ⟨sep, clock, hsep, rfl, hclock⟩
  · rintro ⟨sep, clock, hsep, rfl, hclock⟩
    exact ⟨_, ⟨sep, rfl, hsep⟩, clock, rfl, hclock⟩

/-- The conditions on a time hold where a time stands behind the day. -/
theorem timeAt_eq_ok_true (h : IsRest text 10 rest) :
    allOf [holdsAt (fun b => b == byte 'T' || b == byte ' ') 10 (encoded text),
        numbersAt ':' 2 11 (encoded text)] = .ok true ↔
      ∃ found, (Matcher.dayEnd? rest).bind Matcher.clock? = some found := by
  have hclass : SameClass (fun b => b == byte 'T' || b == byte ' ') fun c => c == 'T' || c == ' ' :=
    (SameClass.single (by decide)).or (.single (by decide))
  rw [allOf_eq_ok_true]
  simp only [List.forall_mem_cons, List.not_mem_nil, false_implies, implies_true, and_true,
    h.holdsAt_eq_ok_true hclass]
  constructor
  · rintro ⟨⟨sep, behind, rfl, hsep⟩, hnumbers⟩
    have hascii := hclass.chars sep hsep
    obtain ⟨hour, minute, second, after, rfl, hhour, hminute, hsecond⟩ :=
      (numbersAt_eq_ok_true (h.ascii hascii) (by decide)).mp hnumbers
    exact ⟨((numeral hour, numeral minute, numeral second), after), time?_eq_some_iff.mpr
      ⟨sep, _, by simpa using hsep, by simp, .intro hhour hminute hsecond⟩⟩
  · rintro ⟨⟨⟨_, _, _⟩, after⟩, htime⟩
    obtain ⟨sep, _, hsep, rfl, @⟨hour, minute, second, hhour, hminute, hsecond⟩⟩ :=
      time?_eq_some_iff.mp htime
    have hsep' : (sep == 'T' || sep == ' ') = true := by simpa using hsep
    refine ⟨⟨sep, _, rfl, hsep'⟩, ?_⟩
    exact (numbersAt_eq_ok_true (h.ascii (hclass.chars sep hsep')) (by decide)).mpr
      ⟨hour, minute, second, after, by simp, hhour, hminute, hsecond⟩

theorem numberBetween_clock {hour minute second : Nat} (h : IsRest text 11 (ds ++ after))
    (hclock : SpellsClock ds hour minute second) :
    numberBetween 11 13 (encoded text) = .ok hour ∧
      numberBetween 14 16 (encoded text) = .ok minute ∧
        numberBetween 17 19 (encoded text) = .ok second := by
  obtain ⟨hhour, hminute, hsecond⟩ := hclock
  simp only [List.append_assoc, List.cons_append] at h
  have h₁₄ := (h.number hhour).ascii (by decide)
  have h₁₇ := (h₁₄.number hminute).ascii (by decide)
  exact ⟨numberBetween_eq h hhour (by decide), numberBetween_eq h₁₄ hminute (by decide),
    numberBetween_eq h₁₇ hsecond (by decide)⟩

theorem datetime_eq_none {table : SymbolTable} {d : Date}
    (hday : Matcher.day? text = some (d, rest))
    (htime : (Matcher.dayEnd? rest).bind Matcher.clock? = none) :
    Matcher.datetime table text = none := by
  rw [Matcher.datetime, hday]
  show (Matcher.dayEnd? rest).bind (fun rest => (Matcher.clock? rest).bind _) = none
  rw [← Option.bind_assoc, htime]
  rfl

/-- What the matcher makes of a day and a time, with as many bytes taken as there are in these
and the fraction behind them. -/
theorem datetime_of_time (table : SymbolTable) {d : Date} {hour minute second : Nat}
    (hday : Matcher.day? text = some (d, rest))
    (htime : (Matcher.dayEnd? rest).bind Matcher.clock? = some ((hour, minute, second), after)) :
    ∃ taken behind, text = taken ++ behind ∧
      after = fractionPart (Matcher.fractionDigits after) ++ behind ∧
      byteSize taken = 19 + byteSize (fractionPart (Matcher.fractionDigits after)) ∧
      Matcher.datetime table text =
        if startsWithDigit behind then none
        else (Datetime.of? d hour minute second
          (Matcher.billionths (Matcher.fractionDigits after))).map
            fun x => ⟨taken, .datetime x⟩ := by
  have hmatch : Matcher.datetime table text =
      let ds := Matcher.fractionDigits after
      let length := if ds.isEmpty then 19 else 20 + ds.length
      if startsWithDigit (text.drop length) then none
      else (Datetime.of? d hour minute second (Matcher.billionths ds)).bind fun x =>
        some ⟨text.take length, .datetime x⟩ := by
    rw [Matcher.datetime, hday]
    show (Matcher.dayEnd? rest).bind (fun rest => (Matcher.clock? rest).bind _) = _
    rw [← Option.bind_assoc, htime]
    rfl
  obtain ⟨t, rfl, hspells⟩ := Matcher.day?_eq_some_iff.mp hday
  obtain ⟨sep, clock, hsep, rfl, hclock⟩ := time?_eq_some_iff.mp htime
  obtain ⟨behind, hafter, -, -⟩ := Matcher.fractionPart_split after
  generalize Matcher.fractionDigits after = ds at hmatch hafter ⊢
  subst hafter
  have htext : t ++ sep :: (clock ++ (fractionPart ds ++ behind)) =
      t ++ sep :: (clock ++ fractionPart ds) ++ behind := by simp
  have hlength := Matcher.length_day_clock_fraction hspells sep hclock ds
  have hsize : byteSize (t ++ sep :: (clock ++ fractionPart ds)) =
      19 + byteSize (fractionPart ds) := by
    have hone : sep.utf8Size = 1 := by rcases hsep with rfl | rfl <;> rfl
    rw [byteSize_append, byteSize_cons, byteSize_append, byteSize_day hspells,
      byteSize_clock hclock, hone]
    omega
  refine ⟨_, behind, htext, rfl, hsize, ?_⟩
  rw [hmatch]
  dsimp only
  rw [← hlength, htext, List.drop_left, List.take_left]
  cases Datetime.of? d hour minute second (Matcher.billionths ds) with
  | none => rfl
  | some x => rfl

theorem datetime_eq (table : SymbolTable) (text : List Char) :
    datetime table text = .ok ((Matcher.datetime table text).map Match.taken) := by
  unfold datetime
  rw [dayPrefix_eq, Outcome.ok_bind]
  cases hday : Matcher.day? text with
  | none =>
    unfold Matcher.datetime
    rw [hday]
    rfl
  | some found =>
    obtain ⟨d, rest⟩ := found
    have hbehind : IsRest text 10 rest := by
      obtain ⟨t, rfl, hspells⟩ := Matcher.day?_eq_some_iff.mp hday
      exact byteSize_day hspells ▸ isRest_of_append rfl
    have hshape := timeAt_eq_ok_true hbehind
    dsimp only [Option.map_some]
    cases htime : (Matcher.dayEnd? rest).bind Matcher.clock? with
    | none =>
      rw [datetime_eq_none hday htime]
      split
      · rfl
      · obtain ⟨shaped, hshaped⟩ : ∃ v, allOf
            [holdsAt (fun b => b == byte 'T' || b == byte ' ') 10 (encoded text),
              numbersAt ':' 2 11 (encoded text)] = .ok v := by
          apply exists_allOf
          simp only [List.forall_mem_cons, List.not_mem_nil, false_implies, implies_true, and_true]
          exact ⟨exists_holdsAt _ (by omega), exists_numbersAt ':' (by omega)⟩
        cases shaped with
        | true =>
          obtain ⟨found, hfound⟩ := hshape.mp hshaped
          cases htime.symm.trans hfound
        | false =>
          rw [hshaped]
          rfl
    | some found =>
      obtain ⟨⟨hour, minute, second⟩, after⟩ := found
      have hshaped := hshape.mpr ⟨_, htime⟩
      obtain ⟨taken, behind, htext, -, hsize, hmatch⟩ := datetime_of_time table hday htime
      have hend : IsRest text _ behind := isRest_of_append htext.symm
      obtain ⟨sep, clock, hsep, rfl, hclock⟩ := time?_eq_some_iff.mp htime
      have h₁₁ := hbehind.ascii (show sep.toNat < 128 by rcases hsep with rfl | rfl <;> decide)
      have h₁₉ := h₁₁.append
      rw [byteSize_clock hclock] at h₁₉
      obtain ⟨hhour, hminute, hsecond⟩ := numberBetween_clock h₁₁ hclock
      have hlong : ¬ (encoded text).length < 19 := by
        rw [length_encoded, h₁₉.byteSize_eq]
        omega
      rw [hsize] at hend
      rw [if_neg hlong, hshaped, Outcome.ok_bind, if_pos rfl, fraction_eq h₁₉, Outcome.ok_bind,
        hmatch]
      dsimp only
      rw [followedByDigit_eq hend, hhour, hminute, hsecond]
      split
      · rfl
      · rw [Option.map_map, ← hsize]
        rfl

end Checked
end QueryExpr
