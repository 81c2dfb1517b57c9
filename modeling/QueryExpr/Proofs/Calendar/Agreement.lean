/-
Two readers of one notation.

A day or a datetime in a source text has fields of fixed width.  The reader of texts that
stand alone allows more, blanks and missing zeros among them, and reads fields of that width
alike.  A space in front of the clock is the first space there is, since a day has none, so
putting the letter in its place gives the one form that the reader takes.
-/
import QueryExpr.Proofs.Expr.Encoding
import QueryExpr.Proofs.Lexer.Matching

namespace QueryExpr

namespace Calendar

variable {text ds : List Char} {d : Date} {x : Datetime}

theorem readsDay_of_spellsDay {t : List Char} (h : SpellsDay t d) : ReadsDay t d := by
  obtain ⟨hyear, hmonth, hday, hd⟩ := h
  obtain ⟨hy, hm, hdd⟩ := Date.eq_of_of? hd
  refine readsDay_of_parts (fun text => ?_) hmonth hm.symm hday hdd.symm
  rw [hy]
  exact year_append hyear _

theorem readDate_of_spells {table : SymbolTable} (h : Spells table text (.date d)) :
    readDate text = .ok d := by
  cases h with
  | date hd => exact (readsDay_of_spellsDay hd).readDate

theorem joinAtSpace_eq_self (h : ' ' ∉ text) : joinAtSpace text = text := by
  induction text with
  | nil => rfl
  | cons c text ih =>
    rw [List.mem_cons, not_or] at h
    obtain ⟨hc, htext⟩ := h
    rw [joinAtSpace, if_neg (Ne.symm hc), ih htext]

/-- With a space or with the letter already, the letter stands behind the day. -/
theorem joinAtSpace_separator {day rest : List Char} {sep : Char} (hday : ' ' ∉ day)
    (hrest : ' ' ∉ rest) (hsep : sep = 'T' ∨ sep = ' ') :
    joinAtSpace (day ++ sep :: rest) = day ++ 'T' :: rest := by
  rcases hsep with rfl | rfl
  · exact joinAtSpace_eq_self (by simp [hday, hrest])
  · exact joinAtSpace_append hday rest

/-- A fraction is read in nanoseconds as a matcher takes it, however many digits it has. -/
theorem fraction_fractionPart (h : Text.AllDigits ds) :
    fraction (fractionPart ds) = .ok (Matcher.billionths ds, []) := by
  by_cases hds : ds = []
  · rw [hds]
    rfl
  · have hread := fraction_append h hds (Text.stopsAt_nil Char.isDigit)
    rw [List.append_nil] at hread
    rw [fractionPart, if_neg hds, hread]
    rfl

theorem checkTime_of_of? {hour minute second nanos : Nat}
    (h : Datetime.of? d hour minute second nanos = some x) :
    checkTime d hour minute second nanos = .ok x := by
  have hsecond := (Datetime.isTime_of_of? h).2.2.1
  rw [checkTime, if_neg (Nat.ne_of_lt hsecond), h]

theorem readDatetime_of_spells {table : SymbolTable} (h : Spells table text (.datetime x)) :
    readDatetime text = .ok x := by
  cases h with
  | @datetime day clock ds sep d hour minute second x hday hsep hclock hds hx =>
    have hday' : ' ' ∉ day := hday.not_mem rfl (by decide)
    have hclock' : ' ' ∉ clock ++ fractionPart ds := by
      rw [List.mem_append, not_or]
      exact ⟨hclock.not_mem rfl (by decide), not_mem_fractionPart hds rfl (by decide)⟩
    have hjoined := joinAtSpace_separator hday' hclock' hsep
    obtain ⟨hhour, hminute, hsecond, -⟩ := Datetime.isTime_of_of? hx
    obtain @⟨hours, minutes, seconds, hhours, hminutes, hseconds⟩ := hclock
    rw [List.append_assoc, List.cons_append, List.append_assoc, List.cons_append] at hjoined
    rw [List.append_assoc, List.cons_append, List.append_assoc, List.cons_append,
      readDatetime_eq hjoined (readsDay_of_spellsDay hday) hhours (by omega) hminutes (by omega)
        hseconds (by omega) (fraction_fractionPart hds)]
    exact checkTime_of_of? hx

end Calendar

/-- A text that is taken whole as a date or as a datetime is decoded to the same value. -/
theorem ofJson_of_matched (table : SymbolTable) (t : String) :
    (∀ d, Matcher.date table t.toList = some ⟨t.toList, .date d⟩ →
      Expr.ofJson (.object [("date", .string t)]) = .ok (.leaf (.date d))) ∧
    ∀ x, Matcher.datetime table t.toList = some ⟨t.toList, .datetime x⟩ →
      Expr.ofJson (.object [("datetime", .string t)]) = .ok (.leaf (.datetime x)) := by
  constructor
  · intro d h
    obtain ⟨-, -, -, hspells, -⟩ := Matcher.date_eq_some_iff.mp h
    exact (Expr.Encodes.date (Calendar.readDate_of_spells hspells)).ofJson
  · intro x h
    obtain ⟨-, -, -, hspells, -⟩ := Matcher.datetime_eq_some_iff.mp h
    exact (Expr.Encodes.datetime (Calendar.readDatetime_of_spells hspells)).ofJson

/-- A leap day, and a fraction of more digits than count. -/
theorem ofJson_of_matched_leap :
    (Matcher.date SymbolTable.default "2024-02-29".toList =
        some ⟨"2024-02-29".toList, .date ⟨2024, 2, 29, by decide⟩⟩ ∧
      Expr.ofJson (.object [("date", .string "2024-02-29")]) =
        .ok (.leaf (.date ⟨2024, 2, 29, by decide⟩))) ∧
    Matcher.datetime SymbolTable.default "2024-02-29 23:59:59.12345678987".toList =
        some ⟨"2024-02-29 23:59:59.12345678987".toList,
          .datetime ⟨⟨2024, 2, 29, by decide⟩, 23, 59, 59, 123456789, by decide⟩⟩ ∧
      Expr.ofJson (.object [("datetime", .string "2024-02-29 23:59:59.12345678987")]) =
        .ok (.leaf (.datetime ⟨⟨2024, 2, 29, by decide⟩, 23, 59, 59, 123456789, by decide⟩)) :=
  ⟨⟨rfl, (ofJson_of_matched SymbolTable.default "2024-02-29").1 _ rfl⟩,
    rfl, (ofJson_of_matched SymbolTable.default "2024-02-29 23:59:59.12345678987").2 _ rfl⟩

end QueryExpr
