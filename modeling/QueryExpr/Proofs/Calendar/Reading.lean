/-
Dates and datetimes are read as they were written.

Every part of the written form is a number of known width between separators, so each reader
takes its part and leaves the others.  Years beyond four digits carry a sign, which is what
lets the reader take more than four.  A leap second that does not end a minute is written as the
next second, and `asWritten` is the datetime that this names.
-/
import QueryExpr.Calendar.Reader
import QueryExpr.Proofs.Outcome
import QueryExpr.Proofs.Text.Numerals

namespace QueryExpr

namespace Text

theorem trimStart_eq_self {text : List Char} (h : StopsAt isBlank text) :
    trimStart text = text := by
  cases text with
  | nil => rfl
  | cons c text => rw [trimStart, List.dropWhile_cons_of_neg (by simp [stopsAt_cons.mp h])]

theorem trimStart_digits {ds : List Char} (hds : AllDigits ds) (hne : ds ≠ [])
    (rest : List Char) :
    trimStart (ds ++ rest) = ds ++ rest := by
  obtain ⟨c, ds, rfl⟩ := List.exists_cons_of_ne_nil hne
  have hc := isBlank_eq_false_of_isDigit (hds c List.mem_cons_self)
  exact trimStart_eq_self (stopsAt_cons.mpr hc)

theorem IsNumber.ne_nil {width : Nat} {ds : List Char} (h : IsNumber width ds)
    (hwidth : 0 < width) : ds ≠ [] :=
  List.ne_nil_of_length_pos (h.length_eq.symm ▸ hwidth)

end Text

namespace Calendar

variable {ds rest : List Char} {width low high : Nat}

theorem number_eq_ok (hne : ds ≠ []) (h : Text.numeral ds ≤ maxNumber) (rest : List Char) :
    number ds rest = .ok (Text.numeral ds, rest) := by
  rw [number, if_neg (by simpa using hne), if_neg (Nat.not_lt.mpr h)]

/-- Digits that fill the width end it, whatever follows. -/
theorem numberOfWidth_append (hds : Text.IsNumber width ds) (hwidth : 0 < width)
    (h : Text.numeral ds ≤ maxNumber) (rest : List Char) :
    numberOfWidth width (ds ++ rest) = .ok (Text.numeral ds, rest) := by
  have hall := Text.digits_append hds.allDigits (Text.stopsAt_nil Char.isDigit)
  have htake : Text.digits ((ds ++ rest).take width) = ds := by
    rw [← hds.length_eq, List.take_left]
    rwa [List.append_nil] at hall
  rw [numberOfWidth, htake, List.drop_left]
  exact number_eq_ok (hds.ne_nil hwidth) h rest

theorem numberOfAnyWidth_append (hds : Text.AllDigits ds) (hne : ds ≠ [])
    (hrest : Text.StopsAt Char.isDigit rest) (h : Text.numeral ds ≤ maxNumber) :
    numberOfAnyWidth (ds ++ rest) = .ok (Text.numeral ds, rest) := by
  rw [numberOfAnyWidth, Text.digits_append hds hrest, Text.afterDigits_append hds hrest]
  exact number_eq_ok hne h rest

theorem field_append (hds : Text.IsNumber 2 ds) (hlow : low ≤ Text.numeral ds)
    (hhigh : Text.numeral ds ≤ high) (rest : List Char) :
    field low high (ds ++ rest) = .ok (Text.numeral ds, rest) := by
  have hlt := Text.numeral_lt hds
  have hmax : Text.numeral ds ≤ maxNumber := by
    unfold maxNumber
    omega
  rw [field, Text.trimStart_digits hds.allDigits (hds.ne_nil (by decide)),
    numberOfWidth_append hds (by decide) hmax, Outcome.ok_bind]
  exact if_pos ⟨hlow, hhigh⟩

theorem separator_cons (c : Char) (rest : List Char) : separator c (c :: rest) = .ok rest :=
  if_pos rfl

/-- A year of four digits has no sign. -/
theorem year_append (hds : Text.IsNumber 4 ds) (rest : List Char) :
    year (ds ++ rest) = .ok ((Text.numeral ds : Int), rest) := by
  have hlt := Text.numeral_lt hds
  have hmax : Text.numeral ds ≤ maxNumber := by
    unfold maxNumber
    omega
  have hnumber := numberOfWidth_append hds (by decide) hmax rest
  have htrim := Text.trimStart_digits hds.allDigits (hds.ne_nil (by decide)) rest
  have hsign : ∀ c text, ds ++ rest = c :: text → c.isDigit = true := by
    intro c text htext
    obtain ⟨d, ds', rfl⟩ := List.exists_cons_of_ne_nil (hds.ne_nil (by decide))
    cases htext
    exact hds.allDigits c List.mem_cons_self
  unfold year
  rw [htrim]
  split
  · rename_i heq
    cases hsign _ _ heq
  · rename_i heq
    cases hsign _ _ heq
  · rw [hnumber, Outcome.map_ok, Outcome.ok_bind]
    exact if_pos (by omega)

/-- A sign lets a year have any number of digits. -/
theorem year_signed (hds : Text.AllDigits ds) (hne : ds ≠ [])
    (hrest : Text.StopsAt Char.isDigit rest)
    (h : Text.numeral ds < 0x8000_0000) :
    year ('-' :: (ds ++ rest)) = .ok (-(Text.numeral ds : Int), rest) ∧
      year ('+' :: (ds ++ rest)) = .ok ((Text.numeral ds : Int), rest) := by
  have hmax : Text.numeral ds ≤ maxNumber := by
    unfold maxNumber
    omega
  have hnumber := numberOfAnyWidth_append hds hne hrest hmax
  constructor
  · unfold year
    show (((numberOfAnyWidth (ds ++ rest)).map _) >>= _) = _
    rw [hnumber, Outcome.map_ok, Outcome.ok_bind]
    exact if_pos (by omega)
  · unfold year
    show (((numberOfAnyWidth (ds ++ rest)).map _) >>= _) = _
    rw [hnumber, Outcome.map_ok, Outcome.ok_bind]
    exact if_pos (by omega)

theorem year_writeYear {y : Int} (hfirst : firstYear ≤ y) (hlast : y ≤ lastYear)
    (hrest : Text.StopsAt Char.isDigit rest) : year (Date.writeYear y ++ rest) = .ok (y, rest) := by
  unfold firstYear at hfirst
  unfold lastYear at hlast
  have hdigits := Text.allDigits_padded 4 y.natAbs
  have hne := Text.padded_ne_nil 4 y.natAbs
  have hnumeral := Text.numeral_padded 4 y.natAbs
  unfold Date.writeYear
  by_cases hfour : 0 ≤ y ∧ y ≤ 9999
  · have hnumber : Text.IsNumber 4 (Text.padded 4 y.natAbs) :=
      Text.isNumber_padded (by decide) (by omega)
    have hy : ((y.natAbs : Nat) : Int) = y := by omega
    rw [if_pos hfour, year_append hnumber, hnumeral, hy]
  · rw [if_neg hfour]
    have hsigned := year_signed hdigits hne hrest (by omega)
    rw [hnumeral] at hsigned
    by_cases hnegative : y < 0
    · have hy : -((y.natAbs : Nat) : Int) = y := by omega
      rw [if_pos hnegative, List.cons_append, hsigned.1, hy]
    · have hy : ((y.natAbs : Nat) : Int) = y := by omega
      rw [if_neg hnegative, List.cons_append, hsigned.2, hy]

theorem daysIn_le (year : Int) (month : Nat) : daysIn year month ≤ 31 := by
  unfold daysIn
  repeat' split
  all_goals omega

/-- Only the twelve months have days. -/
theorem month_range {year : Int} {month day : Nat} (h : IsDay year month day) :
    1 ≤ month ∧ month ≤ 12 := by
  obtain ⟨-, -, hfirst, hlast⟩ := h
  have hdays : 1 ≤ daysIn year month := Nat.le_trans hfirst hlast
  unfold daysIn at hdays
  split at hdays
  · omega
  · split at hdays
    · rename_i hmonth
      simp only [List.mem_cons, List.not_mem_nil, or_false] at hmonth
      omega
    · split at hdays
      · assumption
      · omega

section Pieces

variable {fields fields' : Fields} {format : List Piece} {text : List Char} {piece : Piece}
  {d : Date}

theorem readPieces_of_read (h : piece.read fields text = .ok (fields', rest)) :
    readPieces (piece :: format) fields text = readPieces format fields' rest := by
  rw [readPieces, h, Outcome.ok_bind]

theorem readPieces_year {y : Int} (h : year text = .ok (y, rest)) :
    readPieces (.year :: format) fields text =
      readPieces format { fields with year := y } rest := by
  apply readPieces_of_read
  rw [Piece.read, h, Outcome.map_ok]

theorem readPieces_letter (c : Char) (rest : List Char) :
    readPieces (.letter c :: format) fields (c :: rest) = readPieces format fields rest := by
  apply readPieces_of_read
  rw [Piece.read, separator_cons, Outcome.map_ok]

theorem readPieces_part (p : Part) (hds : Text.IsNumber 2 ds) (hlow : p.range.1 ≤ Text.numeral ds)
    (hhigh : Text.numeral ds ≤ p.range.2) (rest : List Char) :
    readPieces (.part p :: format) fields (ds ++ rest) =
      readPieces format (fields.set (Text.numeral ds) p) rest := by
  apply readPieces_of_read
  rw [Piece.read, field_append hds hlow hhigh, Outcome.map_ok]

/-- The pieces of a day. -/
def dayPieces : List Piece :=
  [.year, .letter '-', .part .month, .letter '-', .part .day]

theorem pieces_dateFormat : pieces dateFormat.toList = dayPieces := rfl

theorem pieces_datetimeFormat :
    pieces datetimeFormat.toList = dayPieces ++ [.letter 'T', .part .hour, .letter ':',
      .part .minute, .letter ':', .part .second, .fraction] := rfl

def Fields.setDay (fields : Fields) (d : Date) : Fields :=
  { fields with year := d.year, month := d.month, day := d.day }

/-- The text is read as the day, whatever stands behind it. -/
def ReadsDay (text : List Char) (d : Date) : Prop :=
  ∀ format fields rest, readPieces (dayPieces ++ format) fields (text ++ rest) =
    readPieces format (fields.setDay d) rest

/-- The parts of a day that exists are read one after the other. -/
theorem readsDay_of_parts {years months days : List Char}
    (hyear : ∀ text, year (years ++ '-' :: text) = .ok (d.year, '-' :: text))
    (hmonth : Text.IsNumber 2 months) (hm : Text.numeral months = d.month)
    (hday : Text.IsNumber 2 days) (hd : Text.numeral days = d.day) :
    ReadsDay (years ++ '-' :: (months ++ '-' :: days)) d := by
  intro format fields rest
  have hmonths := month_range d.isDay
  have hlong := daysIn_le d.year d.month
  obtain ⟨-, -, hfirst, hlast⟩ := d.isDay
  rw [← hm] at hmonths
  rw [← hd] at hfirst hlast
  have hhigh : Text.numeral days ≤ 31 := Nat.le_trans hlast hlong
  simp only [dayPieces, List.append_assoc, List.cons_append, List.nil_append]
  rw [readPieces_year (hyear _), readPieces_letter,
    readPieces_part .month hmonth hmonths.1 hmonths.2, readPieces_letter,
    readPieces_part .day hday hfirst hhigh, hm, hd]
  rfl

theorem checkDay_eq (hyear : fields.year = d.year) (hmonth : fields.month = d.month)
    (hday : fields.day = d.day) : checkDay fields = .ok d := by
  rw [checkDay, hyear, hmonth, hday, d.of?_self]

theorem ReadsDay.readDate (h : ReadsDay text d) : readDate text = .ok d := by
  have hread := h [] {} []
  rw [List.append_nil, List.append_nil] at hread
  rw [Calendar.readDate, readFields, pieces_dateFormat, hread, readPieces, Outcome.ok_bind]
  exact checkDay_eq rfl rfl rfl

end Pieces

end Calendar

open Calendar

namespace Date

theorem readsDay_write (d : Date) : ReadsDay d.write d := by
  obtain ⟨hfirst, hlast, hday, hdays⟩ := d.isDay
  have hmonth := month_range d.isDay
  have hlong := daysIn_le d.year d.month
  have hmonthNumber : Text.IsNumber 2 (Text.padded 2 d.month) :=
    Text.isNumber_padded (by decide) (by omega)
  have hdayNumber : Text.IsNumber 2 (Text.padded 2 d.day) :=
    Text.isNumber_padded (by decide) (by omega)
  have hread := readsDay_of_parts (fun text => year_writeYear hfirst hlast (by simp))
    hmonthNumber (Text.numeral_padded 2 d.month) hdayNumber (Text.numeral_padded 2 d.day)
  rw [write, List.append_assoc, List.cons_append]
  exact hread

theorem space_not_mem_write (d : Date) : ' ' ∉ d.write := by
  have hpadded : ∀ width n, ' ' ∉ Text.padded width n := by
    intro width n hspace
    exact absurd (Text.allDigits_padded width n ' ' hspace) (by decide)
  have hyear : ' ' ∉ writeYear d.year := by
    unfold writeYear
    split
    · exact hpadded 4 _
    · split <;> simp [hpadded]
  simp [write, hyear, hpadded]

end Date

namespace Calendar

variable {text day hour minute second tail ds rest : List Char} {nanos : Nat}

theorem joinAtSpace_append (h : ' ' ∉ day) (rest : List Char) :
    joinAtSpace (day ++ ' ' :: rest) = day ++ 'T' :: rest := by
  induction day with
  | nil => rfl
  | cons c day ih =>
    rw [List.mem_cons, not_or] at h
    obtain ⟨hc, hday⟩ := h
    rw [List.cons_append, joinAtSpace, if_neg (Ne.symm hc), ih hday, List.cons_append]

/-- The digits up to the ninth count, and those behind it are passed over. -/
theorem fraction_append (hds : Text.AllDigits ds) (hne : ds ≠ [])
    (hrest : Text.StopsAt Char.isDigit rest) :
    fraction ('.' :: (ds ++ rest)) =
      .ok (Text.numeral (ds.take 9) * 10 ^ (9 - (ds.take 9).length), rest) := by
  have htaken := hds.take 9
  have hdropped := hds.drop 9
  have hstop : ∀ n, Text.StopsAt Char.isDigit (rest.take n) := by
    intro n
    cases n with
    | zero => simp
    | succ n =>
      cases rest with
      | nil => simp
      | cons c rest => simpa using hrest
  have hdigits : Text.digits ((ds ++ rest).take 9) = ds.take 9 := by
    rw [List.take_append, Text.digits_append htaken (hstop _)]
  have hbehind : (ds ++ rest).drop (ds.take 9).length = ds.drop 9 ++ rest := by
    rw [← List.take_append_drop 9 ds, List.append_assoc, List.take_append_drop, List.drop_left]
  have hnonempty : ds.take 9 ≠ [] := by
    intro hnil
    rcases List.take_eq_nil_iff.mp hnil with hnine | hds
    · omega
    · exact hne hds
  have hlt : Text.numeral (ds.take 9) < 10 ^ (ds.take 9).length := Text.numeral_lt ⟨rfl, htaken⟩
  have hnine : 10 ^ (ds.take 9).length ≤ 10 ^ 9 :=
    Nat.pow_le_pow_right (by decide) (List.length_take_le 9 ds)
  have hmax : Text.numeral (ds.take 9) ≤ maxNumber := by
    unfold maxNumber
    omega
  rw [fraction, hdigits, hbehind, number_eq_ok hnonempty hmax, Outcome.ok_bind]
  dsimp only
  rw [Text.afterDigits_append hdropped hrest]
  rfl

/-- A datetime is read part by part: the day in front of the letter, then three numbers and
the fraction. -/
theorem readDatetime_eq {d : Date}
    (htext : joinAtSpace text =
      day ++ 'T' :: (hour ++ ':' :: (minute ++ ':' :: (second ++ tail))))
    (hday : ReadsDay day d)
    (hhour : Text.IsNumber 2 hour) (hhourMax : Text.numeral hour ≤ 23)
    (hminute : Text.IsNumber 2 minute) (hminuteMax : Text.numeral minute ≤ 59)
    (hsecond : Text.IsNumber 2 second) (hsecondMax : Text.numeral second ≤ 60)
    (htail : fraction tail = .ok (nanos, [])) :
    readDatetime text = checkTime d (Text.numeral hour) (Text.numeral minute)
      (Text.numeral second) nanos := by
  have hfraction : ∀ fields, readPieces [.fraction] fields tail =
      .ok ({ fields with nanos := nanos }, []) := by
    intro fields
    refine (readPieces_of_read ?_).trans rfl
    rw [Piece.read, htail, Outcome.map_ok]
  rw [readDatetime, readFields, htext, pieces_datetimeFormat, hday, readPieces_letter,
    readPieces_part .hour hhour (Nat.zero_le _) hhourMax, readPieces_letter,
    readPieces_part .minute hminute (Nat.zero_le _) hminuteMax, readPieces_letter,
    readPieces_part .second hsecond (Nat.zero_le _) hsecondMax, hfraction, Outcome.ok_bind]
  show (checkDay _ >>= _) = _
  rw [checkDay_eq (d := d) rfl rfl rfl, Outcome.ok_bind]
  rfl

end Calendar

namespace Datetime

theorem fraction_writeFraction {nanos : Nat} (h : nanos < nanosPerSecond) :
    fraction (writeFraction nanos) = .ok (nanos, []) := by
  unfold nanosPerSecond at h
  have hpadded : ∀ width n, 0 < width → width ≤ 9 → n < 10 ^ width →
      fraction ('.' :: Text.padded width n) = .ok (n * 10 ^ (9 - width), []) := by
    intro width n hwidth hnine hn
    have hlength := Text.length_padded hwidth hn
    have htake : (Text.padded width n).take 9 = Text.padded width n :=
      List.take_of_length_le (by omega)
    have hread := fraction_append (Text.allDigits_padded width n) (Text.padded_ne_nil width n)
      (Text.stopsAt_nil Char.isDigit)
    rwa [List.append_nil, htake, hlength, Text.numeral_padded] at hread
  unfold writeFraction
  by_cases hzero : nanos = 0
  · rw [if_pos hzero, hzero]
    rfl
  rw [if_neg hzero]
  by_cases hmillis : nanos % 1000000 = 0
  · have hvalue : nanos / 1000000 * 10 ^ (9 - 3) = nanos := by omega
    rw [if_pos hmillis, hpadded 3 _ (by decide) (by decide) (by omega), hvalue]
  rw [if_neg hmillis]
  by_cases hmicros : nanos % 1000 = 0
  · have hvalue : nanos / 1000 * 10 ^ (9 - 6) = nanos := by omega
    rw [if_pos hmicros, hpadded 6 _ (by decide) (by decide) (by omega), hvalue]
  · rw [if_neg hmicros, hpadded 9 _ (by decide) (by decide) (by omega)]
    simp

theorem readDatetime_parts (d : Date) {hour minute second nanos : Nat} (hhour : hour < 24)
    (hminute : minute < 60) (hsecond : second ≤ 60) (hnanos : nanos < nanosPerSecond) :
    readDatetime (d.write ++ ' ' :: (Text.padded 2 hour ++ ':' :: (Text.padded 2 minute ++
      ':' :: (Text.padded 2 second ++ writeFraction nanos)))) =
        checkTime d hour minute second nanos := by
  have hnumber : ∀ n, n < 100 → Text.IsNumber 2 (Text.padded 2 n) :=
    fun n hn => Text.isNumber_padded (by decide) hn
  have hread := readDatetime_eq (joinAtSpace_append d.space_not_mem_write _) d.readsDay_write
    (hnumber hour (by omega)) (by rw [Text.numeral_padded]; omega)
    (hnumber minute (by omega)) (by rw [Text.numeral_padded]; omega)
    (hnumber second (by omega)) (by rw [Text.numeral_padded]; omega)
    (fraction_writeFraction hnanos)
  simpa only [Text.numeral_padded] using hread

/-- The datetime that the written form names: a leap second is the next second, unless it ends a
minute. -/
def asWritten (t : Datetime) : Datetime :=
  if h : LeapEndsMinute t.second t.nanos then t
  else
    { t with
      second := t.second + 1
      nanos := t.nanos - nanosPerSecond
      isTime := by
        obtain ⟨hhour, hminute, hsecond, hnanos⟩ := t.isTime
        unfold LeapEndsMinute at h
        exact ⟨hhour, hminute, by omega, by omega⟩ }

theorem asWritten_eq_self_iff {t : Datetime} :
    t.asWritten = t ↔ LeapEndsMinute t.second t.nanos := by
  unfold asWritten
  split
  · rename_i h
    exact iff_of_true rfl h
  · rename_i h
    refine iff_of_false (fun heq => ?_) h
    have hsecond := congrArg Datetime.second heq
    exact absurd hsecond (Nat.succ_ne_self t.second)

/-- A leap second at the end of a minute is written as second 60 and read back as the second
before it.  One that is written as the next second is read back as that. -/
theorem readDatetime_write (t : Datetime) : readDatetime t.write = .ok t.asWritten := by
  obtain ⟨hhour, hminute, hsecond, hnanos⟩ := t.isTime
  have hwritten : ∀ second nanos, t.date.write ++ ' ' :: Text.padded 2 t.hour ++
      ':' :: Text.padded 2 t.minute ++ ':' :: Text.padded 2 second ++ writeFraction nanos =
        t.date.write ++ ' ' :: (Text.padded 2 t.hour ++ ':' :: (Text.padded 2 t.minute ++
          ':' :: (Text.padded 2 second ++ writeFraction nanos))) := by
    intro second nanos
    simp
  unfold write asWritten
  dsimp only
  rw [hwritten]
  by_cases hleap : nanosPerSecond ≤ t.nanos
  · have htotal : nanosPerSecond + (t.nanos - nanosPerSecond) = t.nanos := by omega
    rw [if_pos hleap, if_pos hleap, readDatetime_parts t.date hhour hminute (by omega) (by omega),
      checkTime]
    by_cases hlast : t.second = 59
    · have hends : LeapEndsMinute t.second t.nanos := Or.inr hlast
      have hself := of?_self hends
      rw [hlast] at hself
      rw [dif_pos hends, hlast, if_pos rfl, htotal, hself]
    · have hends : ¬ LeapEndsMinute t.second t.nanos := by
        unfold LeapEndsMinute
        omega
      have hnext : IsTime t.hour t.minute (t.second + 1) (t.nanos - nanosPerSecond) :=
        ⟨hhour, hminute, by omega, by omega⟩
      rw [dif_neg hends, if_neg (by omega), of?, dif_pos ⟨hnext, Or.inl (by omega)⟩]
  · have hends : LeapEndsMinute t.second t.nanos := Or.inl (Nat.not_le.mp hleap)
    rw [dif_pos hends, if_neg hleap, if_neg hleap,
      readDatetime_parts t.date hhour hminute (by omega) (by omega), checkTime,
      if_neg (by omega), of?_self hends]

end Datetime

end QueryExpr
