/-
What matchers match.

Each matcher takes exactly the fronts that spell a token of its kind and end there.  The
readers that matchers are made of are described in the same way, by what they take and what
they leave.
-/
import Mathlib.Data.List.Basic
import QueryExpr.Proofs.Lexer.Spelling
import QueryExpr.Proofs.Symbols.Longest

namespace QueryExpr

namespace Text

variable {width n : Nat} {c : Char} {text rest : List Char}

theorem fixedDigits?_eq_some_iff :
    fixedDigits? width text = some (n, rest) ↔
      ∃ ds, text = ds ++ rest ∧ IsNumber width ds ∧ n = numeral ds := by
  unfold fixedDigits?
  dsimp only
  constructor
  · intro h
    split at h
    · rename_i hds
      cases h
      exact ⟨text.take width, (List.take_append_drop width text).symm,
        ⟨hds.1, List.all_eq_true.mp hds.2⟩, rfl⟩
    · cases h
  · rintro ⟨ds, rfl, hds, rfl⟩
    have htake : (ds ++ rest).take width = ds := by rw [← hds.length_eq, List.take_left]
    have hdrop : (ds ++ rest).drop width = rest := by rw [← hds.length_eq, List.drop_left]
    rw [htake, hdrop, if_pos ⟨hds.length_eq, List.all_eq_true.mpr hds.allDigits⟩]

theorem literal?_eq_some_iff : literal? c text = some rest ↔ text = c :: rest := by
  cases text with
  | nil => simp [literal?]
  | cons d text =>
    by_cases hd : d = c
    · simp [literal?, hd]
    · simp [literal?, hd]

end Text

/-- The text starts with `t`, which spells the token and ends there. -/
def Reads (table : SymbolTable) (text t : List Char) (tok : Token) : Prop :=
  ∃ after, text = t ++ after ∧ Spells table t tok ∧ Ends table t after tok

theorem Reads.isPrefix {table : SymbolTable} {text t : List Char} {tok : Token}
    (h : Reads table text t tok) : t <+: text := by
  obtain ⟨after, rfl, -, -⟩ := h
  exact List.prefix_append t after

/-- The match takes something, and takes it from the front of the text. -/
structure Match.IsFront (m : Match) (text : List Char) : Prop where
  isPrefix : m.text <+: text
  nonempty : m.text ≠ []

namespace Matcher

variable {table : SymbolTable} {text t : List Char} {tok : Token}

theorem int_eq_some_iff :
    int table text = some ⟨t, tok⟩ ↔ tok.kind = "int" ∧ Reads table text t tok := by
  constructor
  · intro h
    unfold int at h
    dsimp only at h
    split at h
    · cases h
    · rename_i hne
      obtain ⟨v, hv, hmatch⟩ := Option.map_eq_some_iff.mp h
      cases hmatch
      exact ⟨rfl, Text.afterDigits text, (Text.digits_append_afterDigits text).symm,
        .int (Text.allDigits_digits text) (by simpa using hne) hv, Text.stopsAt_afterDigits text⟩
  · rintro ⟨hkind, after, rfl, hspells, hends⟩
    cases hspells with
    | int ht hne hv =>
      unfold int
      rw [Text.digits_append ht hends]
      dsimp only
      rw [if_neg (by simpa using hne), hv]
      rfl
    | _ => simp [Token.kind] at hkind

theorem float_sound (h : float table text = some ⟨t, tok⟩) :
    tok.kind = "float" ∧ Reads table text t tok := by
  obtain ⟨d, hd, hmatch⟩ := Option.bind_eq_some_iff.mp h
  obtain ⟨htext, hmantissa, hrest⟩ := Decimal.mantissa?_cases hd
  split at hmatch
  · rename_i part e hpart
    cases hmatch
    obtain ⟨after, hafter, hexponent, hends⟩ := Decimal.exponentPart?_sound hpart
    refine ⟨rfl, after, by rw [htext, hafter, List.append_assoc], .scientific hmantissa hexponent,
      hends, ?_⟩
    intro hchars
    exact absurd (fun c hc => hchars c (List.mem_append_right _ hc)) hexponent.not_plain
  · rename_i hnone
    split at hmatch
    · rename_i hpoint
      cases hmatch
      obtain ⟨whole, fraction, dtext, rest⟩ := d
      dsimp only at hmantissa htext hrest hnone ⊢
      cases hmantissa with
      | pointed hwhole hfraction hne =>
        exact ⟨rfl, rest, htext, .decimal hwhole hfraction hne, hrest, fun _ => hnone⟩
      | plain hwhole hne => simp [Decimal.Mantissa.hasPoint] at hpoint
    · cases hmatch

theorem float_complete {after : List Char} (hspells : Spells table t tok)
    (hkind : tok.kind = "float") (hends : Ends table t after tok) :
    float table (t ++ after) = some ⟨t, tok⟩ := by
  cases hspells with
  | @decimal whole fraction hwhole hfraction hne =>
    have hnone : Decimal.exponentPart? after = none := by
      apply hends.2
      intro c hc
      rcases List.mem_append.mp hc with hc | hc
      · exact Or.inl (hwhole c hc)
      · rcases List.mem_cons.mp hc with rfl | hc
        · exact Or.inr rfl
        · exact Or.inl (hfraction c hc)
    have hmantissa := Decimal.mantissa?_pointed hwhole hfraction hne hends.1
    unfold float
    rw [List.append_assoc, List.cons_append, hmantissa]
    simp [hnone, Decimal.Mantissa.hasPoint, Decimal.Mantissa.toFloat]
  | @scientific whole fraction mantissa part e hmantissa hpart =>
    have hrest : Text.StopsAt Char.isDigit (part ++ after) ∧
        Text.StopsAt (· == '.') (part ++ after) := by
      obtain ⟨mark, ds, rfl, hmark⟩ := hpart.exists_mark
      rcases hmark with rfl | rfl <;> simp
    have hread := Decimal.mantissa?_of_isMantissa hmantissa hrest.1 hrest.2
    unfold float
    rw [List.append_assoc, hread]
    simp [Decimal.exponentPart?_complete hpart hends.1, Decimal.Mantissa.toFloat]
  | _ => simp [Token.kind] at hkind

theorem float_eq_some_iff :
    float table text = some ⟨t, tok⟩ ↔ tok.kind = "float" ∧ Reads table text t tok := by
  constructor
  · exact float_sound
  · rintro ⟨hkind, after, rfl, hspells, hends⟩
    exact float_complete hspells hkind hends

theorem stringBody?_doubled (value : List Char) {after : List Char}
    (hafter : Text.StopsAt (· == '\'') after) :
    stringBody? (doubled value ++ '\'' :: after) = some (doubled value ++ ['\''], value) := by
  induction value with
  | nil =>
    rw [doubled, List.nil_append, stringBody?]
    · rfl
    · rintro rest rfl
      simp at hafter
  | cons c value ih =>
    by_cases hc : c = '\''
    · subst hc
      rw [doubled, if_pos rfl]
      show stringBody? ('\'' :: '\'' :: (doubled value ++ '\'' :: after)) = _
      rw [stringBody?, ih]
      rfl
    · rw [doubled, if_neg hc, List.cons_append, stringBody?, ih]
      · rfl
      · intro rest h
        exact absurd h hc
      · exact hc

theorem stringBody?_sound {taken value : List Char} (h : stringBody? text = some (taken, value)) :
    taken = doubled value ++ ['\''] ∧ ∃ after, text = taken ++ after ∧
      Text.StopsAt (· == '\'') after := by
  induction text using stringBody?.induct generalizing taken value with
  | case1 => cases h
  | case2 rest ih =>
    rw [stringBody?] at h
    obtain ⟨⟨taken', value'⟩, h', heq⟩ := Option.map_eq_some_iff.mp h
    cases heq
    obtain ⟨rfl, after, rfl, hafter⟩ := ih h'
    exact ⟨by simp [doubled], after, rfl, hafter⟩
  | case3 rest hquote =>
    rw [stringBody?] at h
    · cases h
      refine ⟨rfl, rest, rfl, ?_⟩
      cases rest with
      | nil => exact Text.stopsAt_nil _
      | cons c rest =>
        have hc : c ≠ '\'' := by
          rintro rfl
          exact hquote rest rfl
        simpa using hc
    · exact hquote
  | case4 c rest hpair hquote ih =>
    rw [stringBody?] at h
    · obtain ⟨⟨taken', value'⟩, h', heq⟩ := Option.map_eq_some_iff.mp h
      cases heq
      obtain ⟨rfl, after, rfl, hafter⟩ := ih h'
      have hc : c ≠ '\'' := hquote
      exact ⟨by simp [doubled, hc], after, rfl, hafter⟩
    · exact hpair
    · exact hquote

theorem string_eq_some_iff :
    string table text = some ⟨t, tok⟩ ↔ tok.kind = "string" ∧ Reads table text t tok := by
  constructor
  · intro h
    unfold string at h
    split at h
    · obtain ⟨⟨taken, value⟩, hbody, hmatch⟩ := Option.map_eq_some_iff.mp h
      cases hmatch
      obtain ⟨rfl, after, rfl, hafter⟩ := stringBody?_sound hbody
      exact ⟨rfl, after, rfl, .str value, hafter⟩
    · cases h
  · rintro ⟨hkind, after, rfl, hspells, hends⟩
    cases hspells with
    | str value =>
      have hbody := stringBody?_doubled value hends
      have hquoted : inQuotes value ++ after = '\'' :: (doubled value ++ '\'' :: after) := by
        simp [inQuotes]
      rw [hquoted]
      show (stringBody? (doubled value ++ '\'' :: after)).map _ = _
      rw [hbody]
      rfl
    | _ => simp [Token.kind] at hkind

theorem day?_eq_some_iff {d : Date} {rest : List Char} :
    day? text = some (d, rest) ↔ ∃ t, text = t ++ rest ∧ SpellsDay t d := by
  simp only [day?, Option.bind_eq_bind, Option.bind_eq_some_iff, Prod.exists,
    Text.fixedDigits?_eq_some_iff, Text.literal?_eq_some_iff, Option.some.injEq, Prod.mk.injEq]
  constructor
  · rintro ⟨_, _, ⟨year, rfl, hyear, rfl⟩, _, rfl, _, _, ⟨month, rfl, hmonth, rfl⟩, _, rfl, _, _,
      ⟨day, rfl, hday, rfl⟩, d, hd, rfl, rfl⟩
    exact ⟨_, by simp, .intro hyear hmonth hday hd⟩
  · rintro ⟨_, rfl, @⟨year, month, day, _, hyear, hmonth, hday, hd⟩⟩
    exact ⟨_, '-' :: (month ++ '-' :: (day ++ rest)), ⟨year, by simp, hyear, rfl⟩, _, rfl,
      _, '-' :: (day ++ rest), ⟨month, rfl, hmonth, rfl⟩, _, rfl,
      _, rest, ⟨day, rfl, hday, rfl⟩, d, hd, rfl, rfl⟩

theorem clock?_eq_some_iff {hour minute second : Nat} {rest : List Char} :
    clock? text = some ((hour, minute, second), rest) ↔
      ∃ t, text = t ++ rest ∧ SpellsClock t hour minute second := by
  simp only [clock?, Option.bind_eq_bind, Option.bind_eq_some_iff, Prod.exists,
    Text.fixedDigits?_eq_some_iff, Text.literal?_eq_some_iff, Option.some.injEq, Prod.mk.injEq]
  constructor
  · rintro ⟨_, _, ⟨hour, rfl, hhour, rfl⟩, _, rfl, _, _, ⟨minute, rfl, hminute, rfl⟩, _, rfl, _, _,
      ⟨second, rfl, hsecond, rfl⟩, ⟨rfl, rfl, rfl⟩, rfl⟩
    exact ⟨_, by simp, .intro hhour hminute hsecond⟩
  · rintro ⟨_, rfl, @⟨hour, minute, second, hhour, hminute, hsecond⟩⟩
    exact ⟨_, ':' :: (minute ++ ':' :: (second ++ rest)), ⟨hour, by simp, hhour, rfl⟩, _, rfl,
      _, ':' :: (second ++ rest), ⟨minute, rfl, hminute, rfl⟩, _, rfl,
      _, rest, ⟨second, rfl, hsecond, rfl⟩, ⟨rfl, rfl, rfl⟩, rfl⟩

theorem dayEnd?_eq_some_iff {rest : List Char} :
    dayEnd? text = some rest ↔ ∃ sep, text = sep :: rest ∧ (sep = 'T' ∨ sep = ' ') := by
  unfold dayEnd?
  constructor
  · intro h
    split at h
    · cases h
      exact ⟨'T', rfl, Or.inl rfl⟩
    · cases h
      exact ⟨' ', rfl, Or.inr rfl⟩
    · cases h
  · rintro ⟨sep, rfl, rfl | rfl⟩ <;> rfl

theorem date_eq_some_iff :
    date table text = some ⟨t, tok⟩ ↔ tok.kind = "date" ∧ Reads table text t tok := by
  constructor
  · intro h
    obtain ⟨⟨d, rest⟩, hday, hmatch⟩ := Option.bind_eq_some_iff.mp h
    obtain ⟨t', rfl, hspells⟩ := day?_eq_some_iff.mp hday
    dsimp only at hmatch
    split at hmatch
    · cases hmatch
    · rename_i hrest
      rw [← hspells.length_eq, List.take_left] at hmatch
      cases hmatch
      exact ⟨rfl, rest, rfl, .date hspells, Text.not_startsWithDigit_iff.mp hrest⟩
  · rintro ⟨hkind, after, rfl, hspells, hends⟩
    cases hspells with
    | @date _ d hd =>
      have hday : day? (t ++ after) = some (d, after) := day?_eq_some_iff.mpr ⟨t, rfl, hd⟩
      have hafter := Text.startsWithDigit_eq_false_iff.mpr hends
      unfold date
      rw [hday]
      show (if Text.startsWithDigit after = true then none else _) = _
      rw [hafter, if_neg Bool.false_ne_true, ← hd.length_eq, List.take_left]
    | _ => simp [Token.kind] at hkind

/-- What stands behind a clock is a fraction and what follows it. -/
theorem fractionPart_split (rest : List Char) :
    ∃ after, rest = fractionPart (fractionDigits rest) ++ after ∧
      Text.AllDigits (fractionDigits rest) ∧
        (fractionDigits rest ≠ [] → Text.StopsAt Char.isDigit after) := by
  unfold fractionDigits
  split
  · rename_i behind
    by_cases hds : Text.digits behind = []
    · exact ⟨'.' :: behind, by simp [fractionPart, hds], Text.allDigits_digits behind,
        fun h => absurd hds h⟩
    · refine ⟨Text.afterDigits behind, ?_, Text.allDigits_digits behind,
        fun _ => Text.stopsAt_afterDigits behind⟩
      simp [fractionPart, hds, Text.digits_append_afterDigits]
  · exact ⟨rest, rfl, nofun, fun h => absurd rfl h⟩

theorem fractionDigits_append {ds after : List Char} (hds : Text.AllDigits ds)
    (hafter : Text.StopsAt Char.isDigit after) (hnone : ds = [] → fractionDigits after = []) :
    fractionDigits (fractionPart ds ++ after) = ds := by
  unfold fractionPart
  by_cases hne : ds = []
  · rw [if_pos hne, List.nil_append, hnone hne, hne]
  · rw [if_neg hne]
    exact Text.digits_append hds hafter

/-- Nineteen characters stand in front of a fraction. -/
theorem length_day_clock_fraction {day clock : List Char} {d : Date} {hour minute second : Nat}
    (hday : SpellsDay day d) (sep : Char) (hclock : SpellsClock clock hour minute second)
    (ds : List Char) :
    (day ++ sep :: (clock ++ fractionPart ds)).length =
      if ds.isEmpty then 19 else 20 + ds.length := by
  cases ds with
  | nil => simp [fractionPart, hday.length_eq, hclock.length_eq]
  | cons c ds =>
    simp [fractionPart, hday.length_eq, hclock.length_eq]
    omega

theorem datetime_sound (h : datetime table text = some ⟨t, tok⟩) :
    tok.kind = "datetime" ∧ Reads table text t tok := by
  simp only [datetime, Option.bind_eq_bind, Option.bind_eq_some_iff, Prod.exists,
    day?_eq_some_iff, dayEnd?_eq_some_iff, clock?_eq_some_iff] at h
  obtain ⟨d, _, ⟨day, rfl, hday⟩, _, ⟨sep, rfl, hsep⟩, hour, minute, second, rest,
    ⟨clock, rfl, hclock⟩, hmatch⟩ := h
  obtain ⟨after, hafter, hds, hstops⟩ := fractionPart_split rest
  have hlength := length_day_clock_fraction hday sep hclock (fractionDigits rest)
  have htext : day ++ sep :: (clock ++ rest) =
      day ++ sep :: (clock ++ fractionPart (fractionDigits rest)) ++ after := by
    rw [List.append_assoc, List.cons_append, List.append_assoc, ← hafter]
  rw [← hlength, htext, List.drop_left, List.take_left] at hmatch
  split at hmatch
  · cases hmatch
  · rename_i hdigit
    obtain ⟨x, hx, hmatch⟩ := Option.bind_eq_some_iff.mp hmatch
    cases hmatch
    have hend := Text.not_startsWithDigit_iff.mp hdigit
    refine ⟨rfl, after, htext, .datetime hday hsep hclock hds hx, hend, ?_⟩
    -- without a fraction the digits were looked for where the text ends
    intro hshort
    have hnone : fractionDigits rest = [] := by
      rw [hlength] at hshort
      split at hshort
      · rename_i hempty
        exact List.isEmpty_iff.mp hempty
      · omega
    rw [hnone] at hafter
    rw [← hnone, hafter]
    rfl

theorem datetime_complete {after : List Char} (hspells : Spells table t tok)
    (hkind : tok.kind = "datetime") (hends : Ends table t after tok) :
    datetime table (t ++ after) = some ⟨t, tok⟩ := by
  cases hspells with
  | @datetime day clock ds sep d hour minute second x hday hsep hclock hds hx =>
    have hlength := length_day_clock_fraction hday sep hclock ds
    have hfraction : fractionDigits (fractionPart ds ++ after) = ds := by
      refine fractionDigits_append hds hends.1 fun hnone => hends.2 ?_
      rw [hlength, hnone]
      rfl
    have hdigit := Text.startsWithDigit_eq_false_iff.mpr hends.1
    have hday' : day? (day ++ sep :: (clock ++ (fractionPart ds ++ after))) =
        some (d, sep :: (clock ++ (fractionPart ds ++ after))) :=
      day?_eq_some_iff.mpr ⟨_, rfl, hday⟩
    have hsep' : dayEnd? (sep :: (clock ++ (fractionPart ds ++ after))) =
        some (clock ++ (fractionPart ds ++ after)) := dayEnd?_eq_some_iff.mpr ⟨_, rfl, hsep⟩
    have hclock' : clock? (clock ++ (fractionPart ds ++ after)) =
        some ((hour, minute, second), fractionPart ds ++ after) :=
      clock?_eq_some_iff.mpr ⟨_, rfl, hclock⟩
    have htext : day ++ sep :: (clock ++ (fractionPart ds ++ after)) =
        day ++ sep :: (clock ++ fractionPart ds) ++ after := by simp
    unfold datetime
    rw [← htext]
    simp only [hday', hsep', hclock', hfraction, Option.bind_eq_bind, Option.bind_some]
    rw [← hlength, htext, List.drop_left, List.take_left, hdigit, hx]
    rfl
  | _ => simp [Token.kind] at hkind

theorem datetime_eq_some_iff :
    datetime table text = some ⟨t, tok⟩ ↔ tok.kind = "datetime" ∧ Reads table text t tok := by
  constructor
  · exact datetime_sound
  · rintro ⟨hkind, after, rfl, hspells, hends⟩
    exact datetime_complete hspells hkind hends

theorem identifier_eq_some_iff :
    identifier table text = some ⟨t, tok⟩ ↔ tok.kind = "identifier" ∧ Reads table text t tok := by
  constructor
  · intro h
    unfold identifier at h
    dsimp only at h
    split at h
    · cases h
    · rename_i hne
      obtain ⟨after, htext, hword, hends⟩ := (Text.word_eq_iff (by simpa using hne)).mp rfl
      cases h
      exact ⟨rfl, after, htext, .identifier hword, hends⟩
  · rintro ⟨hkind, after, rfl, hspells, hends⟩
    cases hspells with
    | identifier hword =>
      have hne := Text.ne_nil_of_isWord hword
      have htake := (Text.word_eq_iff hne).mpr ⟨after, rfl, hword, hends⟩
      unfold identifier
      dsimp only
      rw [htake, if_neg (by simpa using hne)]
    | _ => simp [Token.kind] at hkind

theorem keyword_eq_some_iff :
    keyword table text = some ⟨t, tok⟩ ↔ tok.kind = "keyword" ∧ Reads table text t tok := by
  constructor
  · intro h
    unfold keyword at h
    dsimp only at h
    split at h
    · cases h
    · rename_i hne
      obtain ⟨after, htext, hword, hends⟩ := (Text.word_eq_iff (by simpa using hne)).mp rfl
      obtain ⟨k, hk, hmatch⟩ := Option.map_eq_some_iff.mp h
      cases hmatch
      exact ⟨rfl, after, htext, .keyword hword hk, hends⟩
  · rintro ⟨hkind, after, rfl, hspells, hends⟩
    cases hspells with
    | keyword hword hk =>
      have hne := Text.ne_nil_of_isWord hword
      have htake := (Text.word_eq_iff hne).mpr ⟨after, rfl, hword, hends⟩
      unfold keyword
      dsimp only
      rw [htake, if_neg (by simpa using hne), hk]
      rfl
    | _ => simp [Token.kind] at hkind

theorem symbol_eq_some_iff (ht : table.Obtained) :
    symbol table text = some ⟨t, tok⟩ ↔ tok.kind = "symbol" ∧ Reads table text t tok := by
  constructor
  · intro h
    obtain ⟨s, hs, hmatch⟩ := Option.map_eq_some_iff.mp h
    cases hmatch
    obtain ⟨hmem, ⟨after, rfl⟩, hmax⟩ := ht.longestSymbol?_eq_some_iff.mp hs
    exact ⟨rfl, after, rfl, .symbol hmem, hmax⟩
  · rintro ⟨hkind, after, rfl, hspells, hends⟩
    cases hspells with
    | @symbol s hs =>
      have hlongest := ht.longestSymbol?_eq_some_iff.mpr ⟨hs, List.prefix_append _ after, hends⟩
      unfold symbol
      rw [hlongest]
      rfl
    | _ => simp [Token.kind] at hkind

variable {name : String} {matcher : Matcher}

/-- A matcher takes the fronts that spell a token of its kind and end there, and no others. -/
theorem eq_some_iff (ht : table.Obtained) (h : (name, matcher) ∈ all) :
    matcher table text = some ⟨t, tok⟩ ↔ tok.kind = name ∧ Reads table text t tok := by
  simp only [all, List.mem_cons, List.not_mem_nil, or_false, Prod.mk.injEq] at h
  rcases h with ⟨rfl, rfl⟩ | ⟨rfl, rfl⟩ | ⟨rfl, rfl⟩ | ⟨rfl, rfl⟩ | ⟨rfl, rfl⟩ | ⟨rfl, rfl⟩ |
    ⟨rfl, rfl⟩ | ⟨rfl, rfl⟩
  · exact int_eq_some_iff
  · exact float_eq_some_iff
  · exact string_eq_some_iff
  · exact date_eq_some_iff
  · exact datetime_eq_some_iff
  · exact identifier_eq_some_iff
  · exact keyword_eq_some_iff
  · exact symbol_eq_some_iff ht

theorem exists_mem_all (tok : Token) : ∃ matcher, (tok.kind, matcher) ∈ all := by
  cases tok with
  | int => exact ⟨int, by simp [all, Token.kind]⟩
  | float => exact ⟨float, by simp [all, Token.kind]⟩
  | str => exact ⟨string, by simp [all, Token.kind]⟩
  | date => exact ⟨date, by simp [all, Token.kind]⟩
  | datetime => exact ⟨datetime, by simp [all, Token.kind]⟩
  | identifier => exact ⟨identifier, by simp [all, Token.kind]⟩
  | keyword => exact ⟨keyword, by simp [all, Token.kind]⟩
  | symbol => exact ⟨symbol, by simp [all, Token.kind]⟩

/-- The matches of a text are its fronts that spell a token and end there. -/
theorem mem_allMatches_iff (ht : table.Obtained) :
    ⟨t, tok⟩ ∈ allMatches table text ↔ Reads table text t tok := by
  constructor
  · intro h
    obtain ⟨⟨name, matcher⟩, hall, hmatch⟩ := List.mem_filterMap.mp h
    exact ((eq_some_iff ht hall).mp hmatch).2
  · intro h
    obtain ⟨matcher, hall⟩ := exists_mem_all tok
    exact List.mem_filterMap.mpr ⟨_, hall, (eq_some_iff ht hall).mpr ⟨rfl, h⟩⟩

theorem isFront_of_mem_allMatches {m : Match} (ht : table.Obtained)
    (h : m ∈ allMatches table text) : m.IsFront text := by
  have hreads : Reads table text m.text m.token := (mem_allMatches_iff ht).mp h
  refine ⟨hreads.isPrefix, ?_⟩
  obtain ⟨-, -, hspells, -⟩ := hreads
  obtain ⟨c, rest, htext, -⟩ := hspells.exists_head ht
  rw [htext]
  exact List.cons_ne_nil c rest

/-- Texts that read alike, as far as the matches of interest go, have these matches in the same
order. -/
theorem filter_allMatches_congr {text' : List Char} {p : Match → Bool} (ht : table.Obtained)
    (h : ∀ t tok, p ⟨t, tok⟩ = true → (Reads table text t tok ↔ Reads table text' t tok)) :
    (allMatches table text).filter p = (allMatches table text').filter p := by
  simp only [allMatches, List.filter_filterMap]
  apply List.filterMap_congr
  rintro ⟨name, matcher⟩ hall
  apply Option.ext
  rintro ⟨t, tok⟩
  simp only [Option.filter_eq_some_iff, eq_some_iff ht hall]
  by_cases hp : p ⟨t, tok⟩ = true
  · rw [h t tok hp]
  · simp [hp]

theorem allMatches_congr {text' : List Char} (ht : table.Obtained)
    (h : ∀ t tok, Reads table text t tok ↔ Reads table text' t tok) :
    allMatches table text = allMatches table text' := by
  have hfilter := filter_allMatches_congr (p := fun _ => true) ht fun t tok _ => h t tok
  simpa using hfilter

end Matcher

end QueryExpr
