/-
Days and times at the front of a text.

A day and a time have digits at fixed places, and both must exist.  Behind the seconds there may
be a fraction of any length, which ends where its digits do, and a point with no digit behind it
is left.  No place and no number on the way leaves the range of the checked operations.
-/
import QueryExpr.Proofs.Checked.Calendar

namespace QueryExpr

open Text

/-- The text starts with the day in four, two and two digits, and `rest` stands behind it.  A date
is a day that exists. -/
def StartsWithDay (text : List Char) (d : Date) (rest : List Char) : Prop :=
  ∃ year month day, text = year ++ '-' :: (month ++ '-' :: (day ++ rest)) ∧
    IsNumber 4 year ∧ IsNumber 2 month ∧ IsNumber 2 day ∧
    d.year = numeral year ∧ d.month = numeral month ∧ d.day = numeral day

/-- The text starts with a day and a time of day in three numbers of two digits, and `rest` stands
behind them. -/
def StartsWithTime (text : List Char) (d : Date) (hour minute second : Nat)
    (rest : List Char) : Prop :=
  ∃ sep hours minutes seconds,
    StartsWithDay text d (sep :: (hours ++ ':' :: (minutes ++ ':' :: (seconds ++ rest)))) ∧
    (sep = 'T' ∨ sep = ' ') ∧ IsNumber 2 hours ∧ IsNumber 2 minutes ∧ IsNumber 2 seconds ∧
    (hour = numeral hours ∧ hour < 24) ∧ (minute = numeral minutes ∧ minute < 60) ∧
    second = numeral seconds ∧ second < 60

/-- The digits of the fraction that the text starts with, none where no digit stands behind a
point. -/
inductive IsFraction : List Char → List Char → Prop where
  | digits {ds after : List Char} (hds : AllDigits ds) (hne : ds ≠ [])
      (hafter : StopsAt Char.isDigit after) : IsFraction ('.' :: (ds ++ after)) ds
  | none {rest : List Char} (hrest : ∀ after, rest = '.' :: after → StopsAt Char.isDigit after) :
      IsFraction rest []

section Days

variable {table : SymbolTable} {text rest : List Char} {d : Date} {m : Match}

theorem startsWithDay_iff : StartsWithDay text d rest ↔ Matcher.day? text = some (d, rest) := by
  rw [Matcher.day?_eq_some_iff]
  constructor
  · intro ⟨year, month, day, htext, hyear, hmonth, hday, hy, hm, hd⟩
    have hself := d.of?_self
    rw [hy, hm, hd] at hself
    exact ⟨_, by simp [htext], .intro hyear hmonth hday hself⟩
  · intro ⟨t, htext, hspells⟩
    obtain @⟨year, month, day, _, hyear, hmonth, hday, hd⟩ := hspells
    exact ⟨year, month, day, by simp [htext], hyear, hmonth, hday, Date.eq_of_of? hd⟩

/-- A day at the front is taken unless a digit follows. -/
theorem StartsWithDay.date_eq (table : SymbolTable) (h : StartsWithDay text d rest) :
    ∃ taken, byteSize taken = 10 ∧
      Matcher.date table text = if startsWithDigit rest then none else some ⟨taken, .date d⟩ := by
  have hday := startsWithDay_iff.mp h
  obtain ⟨t, htext, hspells⟩ := Matcher.day?_eq_some_iff.mp hday
  have htake : text.take 10 = t := by rw [htext, ← hspells.length_eq, List.take_left]
  refine ⟨t, Checked.byteSize_day hspells, ?_⟩
  rw [Matcher.date, hday, ← htake]
  rfl

theorem StartsWithDay.exists_date (table : SymbolTable) (h : StartsWithDay text d rest)
    (hrest : StopsAt Char.isDigit rest) : ∃ m, Matcher.date table text = some m := by
  obtain ⟨taken, -, hmatch⟩ := h.date_eq table
  rw [if_neg (not_startsWithDigit_iff.mpr hrest)] at hmatch
  exact ⟨_, hmatch⟩

theorem exists_startsWithDay (h : Matcher.date table text = some m) :
    ∃ d rest, StartsWithDay text d rest ∧ StopsAt Char.isDigit rest ∧ m.token = .date d ∧
      m.length = 10 := by
  obtain ⟨⟨d, rest⟩, hfound, -⟩ := Option.bind_eq_some_iff.mp h
  have hday := startsWithDay_iff.mpr hfound
  obtain ⟨taken, hsize, hmatch⟩ := hday.date_eq table
  obtain ⟨hdigit, htaken⟩ := Option.ite_none_left_eq_some.mp (hmatch.symm.trans h)
  obtain rfl := Option.some.inj htaken
  exact ⟨d, rest, hday, not_startsWithDigit_iff.mp hdigit, rfl, hsize⟩

end Days

section Fractions

variable {rest behind ds : List Char}

theorem isFraction_iff : IsFraction rest ds ↔ Matcher.fractionDigits rest = ds := by
  constructor
  · intro h
    cases h with
    | digits hds _ hafter => exact digits_append hds hafter
    | none hrest =>
      unfold Matcher.fractionDigits
      split
      · rename_i behind
        have hnone : AllDigits [] := nofun
        exact digits_append hnone (hrest behind rfl)
      · rfl
  · rintro rfl
    unfold Matcher.fractionDigits
    split
    · rename_i behind
      by_cases hds : digits behind = []
      · rw [hds]
        refine .none fun after hafter => ?_
        obtain rfl := (List.cons.inj hafter).2
        exact stopsAt_of_takeWhile_eq_nil hds
      · have hfraction :=
          IsFraction.digits (allDigits_digits behind) hds (stopsAt_afterDigits behind)
        rwa [digits_append_afterDigits] at hfraction
    · rename_i hpoint
      exact .none fun after hafter => absurd hafter (hpoint after)

theorem byteSize_fractionPart (h : AllDigits ds) :
    19 + byteSize (fractionPart ds) = if ds = [] then 19 else 20 + ds.length := by
  unfold fractionPart
  split
  · rfl
  · rw [byteSize_cons, SameClass.isDigit.byteSize_eq h, ← Nat.add_assoc]
    rfl

/-- The digits of a fraction go as far as they can, so a digit that follows is one that follows
the seconds. -/
theorem startsWithDigit_behind_fraction
    (h : rest = fractionPart (Matcher.fractionDigits rest) ++ behind) :
    startsWithDigit behind = startsWithDigit rest := by
  obtain ⟨after, hafter, -, hstops⟩ := Matcher.fractionPart_split rest
  obtain rfl : behind = after := List.append_cancel_left (h.symm.trans hafter)
  by_cases hds : Matcher.fractionDigits rest = []
  · rw [hds] at h
    rw [h]
    rfl
  · have hpoint : startsWithDigit rest = false := by
      rw [h, fractionPart, if_neg hds]
      rfl
    rw [hpoint]
    exact startsWithDigit_eq_false_iff.mpr (hstops hds)

end Fractions

section Times

variable {table : SymbolTable} {text rest : List Char} {d : Date} {hour minute second : Nat}
  {m : Match}

theorem startsWithTime_iff :
    StartsWithTime text d hour minute second rest ↔
      (∃ behind, Matcher.day? text = some (d, behind) ∧
        (Matcher.dayEnd? behind).bind Matcher.clock? = some ((hour, minute, second), rest)) ∧
      hour < 24 ∧ minute < 60 ∧ second < 60 := by
  simp only [Checked.time?_eq_some_iff]
  constructor
  · intro ⟨sep, hours, minutes, seconds, hday, hsep, hhours, hminutes, hseconds, ⟨hh, hhour⟩,
      ⟨hm, hminute⟩, hs, hsecond⟩
    have hclock := SpellsClock.intro hhours hminutes hseconds
    rw [← hh, ← hm, ← hs] at hclock
    exact ⟨⟨_, startsWithDay_iff.mp hday, sep, _, hsep, by simp, hclock⟩, hhour, hminute, hsecond⟩
  · intro ⟨⟨behind, hday, sep, clock, hsep, hbehind, hclock⟩, hhour, hminute, hsecond⟩
    obtain @⟨hours, minutes, seconds, hhours, hminutes, hseconds⟩ := hclock
    rw [List.append_assoc, List.cons_append, List.append_assoc, List.cons_append] at hbehind
    rw [hbehind] at hday
    exact ⟨sep, hours, minutes, seconds, startsWithDay_iff.mpr hday, hsep, hhours, hminutes,
      hseconds, ⟨rfl, hhour⟩, ⟨rfl, hminute⟩, rfl, hsecond⟩

/-- A time at the front is taken with its fraction unless a digit follows the seconds. -/
theorem StartsWithTime.datetime_eq (table : SymbolTable)
    (h : StartsWithTime text d hour minute second rest) :
    ∃ (taken : List Char) (x : Datetime),
      (x.date = d ∧ x.hour = hour ∧ x.minute = minute ∧ x.second = second ∧
        x.nanos = Matcher.billionths (Matcher.fractionDigits rest)) ∧
      byteSize taken = 19 + byteSize (fractionPart (Matcher.fractionDigits rest)) ∧
      Matcher.datetime table text =
        if startsWithDigit rest then none else some ⟨taken, .datetime x⟩ := by
  obtain ⟨⟨behind, hday, htime⟩, hhour, hminute, hsecond⟩ := startsWithTime_iff.mp h
  obtain ⟨taken, after, -, hafter, hsize, hmatch⟩ := Checked.datetime_of_time table hday htime
  obtain ⟨-, -, hds, -⟩ := Matcher.fractionPart_split rest
  have hnanos : Matcher.billionths (Matcher.fractionDigits rest) < Calendar.nanosPerSecond :=
    Checked.billionths_lt hds
  have hisTime : Calendar.IsTime hour minute second
      (Matcher.billionths (Matcher.fractionDigits rest)) := by
    refine ⟨hhour, hminute, hsecond, ?_⟩
    omega
  refine ⟨taken, ⟨d, hour, minute, second, _, hisTime⟩, ⟨rfl, rfl, rfl, rfl, rfl⟩, hsize, ?_⟩
  rw [hmatch, startsWithDigit_behind_fraction hafter, Datetime.of?,
    dif_pos ⟨hisTime, Or.inl hnanos⟩]
  rfl

theorem StartsWithTime.exists_datetime (table : SymbolTable)
    (h : StartsWithTime text d hour minute second rest) (hrest : StopsAt Char.isDigit rest) :
    ∃ m, Matcher.datetime table text = some m := by
  obtain ⟨taken, x, -, -, hmatch⟩ := h.datetime_eq table
  rw [if_neg (not_startsWithDigit_iff.mpr hrest)] at hmatch
  exact ⟨_, hmatch⟩

theorem Reads.startsWithTime {t : List Char} {x : Datetime}
    (h : Reads table text t (.datetime x)) :
    ∃ d hour minute second rest, StartsWithTime text d hour minute second rest := by
  obtain ⟨after, htext, hspells, -⟩ := h
  cases hspells with
  | @datetime day clock ds sep d hour minute second x hday hsep hclock hds hx =>
    have hbehind : text = day ++ sep :: (clock ++ (fractionPart ds ++ after)) := by simp [htext]
    obtain ⟨hhour, hminute, hsecond, -⟩ := Datetime.isTime_of_of? hx
    exact ⟨d, hour, minute, second, fractionPart ds ++ after, startsWithTime_iff.mpr
      ⟨⟨_, Matcher.day?_eq_some_iff.mpr ⟨day, hbehind, hday⟩,
        Checked.time?_eq_some_iff.mpr ⟨sep, clock, hsep, rfl, hclock⟩⟩, hhour, hminute, hsecond⟩⟩

theorem exists_startsWithTime (h : Matcher.datetime table text = some m) :
    ∃ x rest, StartsWithTime text x.date x.hour x.minute x.second rest ∧
      StopsAt Char.isDigit rest ∧ m.token = .datetime x ∧
      m.length = 19 + byteSize (fractionPart (Matcher.fractionDigits rest)) ∧
      x.nanos = Matcher.billionths (Matcher.fractionDigits rest) := by
  obtain ⟨t, tok⟩ := m
  obtain ⟨hkind, hreads⟩ := Matcher.datetime_eq_some_iff.mp h
  cases tok with
  | datetime x =>
    obtain ⟨d, hour, minute, second, rest, htime⟩ := hreads.startsWithTime
    obtain ⟨taken, x', ⟨hd, hhour, hminute, hsecond, hnanos⟩, hsize, hmatch⟩ :=
      htime.datetime_eq table
    obtain ⟨hdigit, htaken⟩ := Option.ite_none_left_eq_some.mp (hmatch.symm.trans h)
    obtain ⟨rfl, hx⟩ := Match.mk.inj (Option.some.inj htaken)
    obtain rfl := Token.datetime.inj hx
    rw [← hd, ← hhour, ← hminute, ← hsecond] at htime
    exact ⟨_, rest, htime, not_startsWithDigit_iff.mp hdigit, rfl, hsize, hnanos⟩
  | _ => simp [Token.kind] at hkind

end Times

/-- Dates and datetimes are taken where such a day or time stands at the front and no digit
follows, with as many bytes as they have and the value that the digits say.  On bytes the same is
found, and no number on the way leaves the range of 32 bits. -/
theorem date_and_datetime_take (table : SymbolTable) (text : List Char) :
    ((∃ m, Matcher.date table text = some m) ↔
      ∃ d rest, StartsWithDay text d rest ∧ StopsAt Char.isDigit rest) ∧
    (∀ m, Matcher.date table text = some m →
      m.length = 10 ∧ ∃ d rest, m.token = .date d ∧ StartsWithDay text d rest) ∧
    ((∃ m, Matcher.datetime table text = some m) ↔
      ∃ d hour minute second rest,
        StartsWithTime text d hour minute second rest ∧ StopsAt Char.isDigit rest) ∧
    (∀ m, Matcher.datetime table text = some m →
      ∃ x rest ds, m.token = .datetime x ∧
        StartsWithTime text x.date x.hour x.minute x.second rest ∧ IsFraction rest ds ∧
        m.length = (if ds = [] then 19 else 20 + ds.length) ∧
        x.nanos * 10 ^ (ds.take 9).length = numeral (ds.take 9) * 10 ^ 9) ∧
    Checked.date table text = .ok ((Matcher.date table text).map Match.taken) ∧
    Checked.datetime table text = .ok ((Matcher.datetime table text).map Match.taken) := by
  refine ⟨⟨?_, ?_⟩, ?_, ⟨?_, ?_⟩, ?_, Checked.date_eq table text, Checked.datetime_eq table text⟩
  · intro ⟨m, hm⟩
    obtain ⟨d, rest, hday, hrest, -⟩ := exists_startsWithDay hm
    exact ⟨d, rest, hday, hrest⟩
  · intro ⟨d, rest, hday, hrest⟩
    exact hday.exists_date table hrest
  · intro m hm
    obtain ⟨d, rest, hday, -, htoken, hlength⟩ := exists_startsWithDay hm
    exact ⟨hlength, d, rest, htoken, hday⟩
  · intro ⟨m, hm⟩
    obtain ⟨x, rest, htime, hrest, -⟩ := exists_startsWithTime hm
    exact ⟨x.date, x.hour, x.minute, x.second, rest, htime, hrest⟩
  · intro ⟨d, hour, minute, second, rest, htime, hrest⟩
    exact htime.exists_datetime table hrest
  · intro m hm
    obtain ⟨x, rest, htime, -, htoken, hlength, hnanos⟩ := exists_startsWithTime hm
    obtain ⟨-, -, hds, -⟩ := Matcher.fractionPart_split rest
    rw [byteSize_fractionPart hds] at hlength
    refine ⟨x, rest, _, htoken, htime, isFraction_iff.mpr rfl, hlength, ?_⟩
    rw [hnanos]
    exact Checked.billionths_mul _

/-- A day of a leap year with ten digits of a second, of which nine count, and that day in a year
that does not have it. -/
theorem date_and_datetime_take_leap_day :
    Matcher.datetime SymbolTable.default "2024-02-29 23:59:59.1234567898x".toList =
        some ⟨"2024-02-29 23:59:59.1234567898".toList,
          .datetime ⟨⟨2024, 2, 29, by decide⟩, 23, 59, 59, 123456789, by decide⟩⟩ ∧
      (∃ rest ds, StartsWithTime "2024-02-29 23:59:59.1234567898x".toList
          ⟨2024, 2, 29, by decide⟩ 23 59 59 rest ∧ IsFraction rest ds ∧ ds.length = 10 ∧
        123456789 = numeral (ds.take 9)) ∧
      Matcher.date SymbolTable.default "2023-02-29".toList = none ∧
      ¬ ∃ d rest, StartsWithDay "2023-02-29".toList d rest ∧ StopsAt Char.isDigit rest := by
  have hmatch : Matcher.datetime SymbolTable.default "2024-02-29 23:59:59.1234567898x".toList =
      some ⟨"2024-02-29 23:59:59.1234567898".toList,
        .datetime ⟨⟨2024, 2, 29, by decide⟩, 23, 59, 59, 123456789, by decide⟩⟩ := rfl
  have hnone : Matcher.date SymbolTable.default "2023-02-29".toList = none := rfl
  refine ⟨hmatch, ?_, hnone, ?_⟩
  · obtain ⟨x, rest, ds, htoken, htime, hfraction, hlength, hnanos⟩ :=
      (date_and_datetime_take SymbolTable.default _).2.2.2.1 _ hmatch
    obtain rfl := Token.datetime.inj htoken
    have hsize : 30 = if ds = [] then 19 else 20 + ds.length := hlength
    split at hsize
    · cases hsize
    · have hten : ds.length = 10 := by omega
      rw [List.length_take, hten] at hnanos
      exact ⟨rest, ds, htime, hfraction, hten, Nat.eq_of_mul_eq_mul_right (by decide) hnanos⟩
  · intro hday
    obtain ⟨m, hm⟩ := (date_and_datetime_take SymbolTable.default _).1.mpr hday
    cases hnone.symm.trans hm

end QueryExpr
