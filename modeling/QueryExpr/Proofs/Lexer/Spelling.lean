/-
How tokens are spelled.

`Spells` says which texts stand for which tokens, and `Ends` says what may follow such a
text without going on with it.  Both are said without the matchers: a matcher takes a front
of a text exactly when the front spells a token of its kind and ends there.
-/
import QueryExpr.Proofs.Decimal.Parts
import QueryExpr.Proofs.Symbols.Obtained
import QueryExpr.Token.Matcher

namespace QueryExpr

/-- The day in four, two and two digits. -/
inductive SpellsDay : List Char → Date → Prop where
  | intro {year month day : List Char} {d : Date} (hyear : Text.IsNumber 4 year)
      (hmonth : Text.IsNumber 2 month) (hday : Text.IsNumber 2 day)
      (hd : Date.of? (Text.numeral year) (Text.numeral month) (Text.numeral day) = some d) :
      SpellsDay (year ++ '-' :: (month ++ '-' :: day)) d

/-- Hour, minute and second in two digits each. -/
inductive SpellsClock : List Char → Nat → Nat → Nat → Prop where
  | intro {hour minute second : List Char} (hhour : Text.IsNumber 2 hour)
      (hminute : Text.IsNumber 2 minute) (hsecond : Text.IsNumber 2 second) :
      SpellsClock (hour ++ ':' :: (minute ++ ':' :: second)) (Text.numeral hour)
        (Text.numeral minute) (Text.numeral second)

/-- The digits behind a point, and nothing where there are none. -/
def fractionPart (ds : List Char) : List Char := if ds = [] then [] else '.' :: ds

/-- The text with each quote in it doubled. -/
def doubled : List Char → List Char
  | [] => []
  | c :: rest => if c = '\'' then '\'' :: '\'' :: doubled rest else c :: doubled rest

def inQuotes (text : List Char) : List Char := '\'' :: (doubled text ++ ['\''])

inductive Spells (table : SymbolTable) : List Char → Token → Prop where
  | int {t : List Char} {v : Int64} (ht : Text.AllDigits t) (hne : t ≠ [])
      (hv : Integer.fit? (Text.numeral t) = some v) : Spells table t (.int v)
  | decimal {whole fraction : List Char} (hwhole : Text.AllDigits whole)
      (hfraction : Text.AllDigits fraction) (hne : whole ≠ [] ∨ fraction ≠ []) :
      Spells table (whole ++ '.' :: fraction)
        (.float (Decimal.nearest (Text.numeral (whole ++ fraction)) (0 - fraction.length)))
  | scientific {whole fraction mantissa part : List Char} {e : Int}
      (hmantissa : Decimal.IsMantissa whole fraction mantissa) (hpart : Decimal.IsExponent part e) :
      Spells table (mantissa ++ part)
        (.float (Decimal.nearest (Text.numeral (whole ++ fraction)) (e - fraction.length)))
  | str (text : List Char) : Spells table (inQuotes text) (.str (String.ofList text))
  | date {t : List Char} {d : Date} (hd : SpellsDay t d) : Spells table t (.date d)
  | datetime {day clock ds : List Char} {sep : Char} {d : Date} {hour minute second : Nat}
      {x : Datetime} (hday : SpellsDay day d) (hsep : sep = 'T' ∨ sep = ' ')
      (hclock : SpellsClock clock hour minute second) (hds : Text.AllDigits ds)
      (hx : Datetime.of? d hour minute second (Matcher.billionths ds) = some x) :
      Spells table (day ++ sep :: (clock ++ fractionPart ds)) (.datetime x)
  | identifier {t : List Char} (ht : Text.isWord t = true) :
      Spells table t (.identifier (String.ofList t))
  | keyword {t : List Char} {k : String} (ht : Text.isWord t = true)
      (hk : table.keyword? (String.ofList t) = some k) : Spells table t (.keyword k)
  | symbol {s : String} (hs : s ∈ table.symbols) : Spells table s.toList (.symbol s)

/-- What follows the text `t` does not go on with the token that `t` spells. -/
def Ends (table : SymbolTable) (t after : List Char) : Token → Prop
  | .int _ | .date _ => Text.StopsAt Char.isDigit after
  | .float _ =>
    Text.StopsAt Char.isDigit after ∧
      ((∀ c ∈ t, c.isDigit = true ∨ c = '.') → Decimal.exponentPart? after = none)
  | .str _ => Text.StopsAt (· == '\'') after
  -- a datetime of nineteen characters has no fraction yet
  | .datetime _ =>
    Text.StopsAt Char.isDigit after ∧ (t.length = 19 → Matcher.fractionDigits after = [])
  | .identifier _ | .keyword _ => Text.StopsAt Text.isWordPart after
  | .symbol _ => ∀ s ∈ table.symbols, s.toList <+: t ++ after → s.toList.length ≤ t.length

section Lengths

variable {t : List Char} {d : Date} {hour minute second : Nat}

theorem SpellsDay.length_eq (h : SpellsDay t d) : t.length = 10 := by
  obtain ⟨hyear, hmonth, hday, -⟩ := h
  simp [hyear.length_eq, hmonth.length_eq, hday.length_eq]

theorem SpellsClock.length_eq (h : SpellsClock t hour minute second) : t.length = 8 := by
  obtain ⟨hhour, hminute, hsecond⟩ := h
  simp [hhour.length_eq, hminute.length_eq, hsecond.length_eq]

end Lengths

section Parts

variable {t ds : List Char} {d : Date} {hour minute second : Nat} {c : Char}

theorem SpellsDay.not_mem (h : SpellsDay t d) (hdigit : c.isDigit = false) (hdash : c ≠ '-') :
    c ∉ t := by
  obtain ⟨hyear, hmonth, hday, -⟩ := h
  simp [hyear.allDigits.not_mem, hmonth.allDigits.not_mem, hday.allDigits.not_mem, hdigit, hdash]

theorem SpellsClock.not_mem (h : SpellsClock t hour minute second) (hdigit : c.isDigit = false)
    (hcolon : c ≠ ':') : c ∉ t := by
  obtain ⟨hhour, hminute, hsecond⟩ := h
  simp [hhour.allDigits.not_mem, hminute.allDigits.not_mem, hsecond.allDigits.not_mem, hdigit,
    hcolon]

theorem not_mem_fractionPart (h : Text.AllDigits ds) (hdigit : c.isDigit = false)
    (hpoint : c ≠ '.') : c ∉ fractionPart ds := by
  unfold fractionPart
  split
  · exact List.not_mem_nil
  · simp [h.not_mem hdigit, hpoint]

end Parts

/-- How a text of the token may begin. -/
def Begins (c : Char) : Token → Prop
  | .int _ | .date _ | .datetime _ => c.isDigit = true
  | .float _ => c.isDigit = true ∨ c = '.'
  | .str _ => c = '\''
  | .identifier _ | .keyword _ => Text.isWordStart c = true
  | .symbol s => s.toList.head? = some c

section Heads

variable {table : SymbolTable} {t : List Char} {tok : Token} {d : Date}

theorem SpellsDay.exists_head (h : SpellsDay t d) : ∃ c rest, t = c :: rest ∧ c.isDigit = true := by
  obtain @⟨year, _, _, _, hyear, -, -, -⟩ := h
  cases year with
  | nil => cases hyear.length_eq
  | cons c year => exact ⟨c, _, rfl, hyear.allDigits c List.mem_cons_self⟩

theorem Text.exists_head_of_isWord (h : Text.isWord t = true) :
    ∃ c rest, t = c :: rest ∧ Text.isWordStart c = true := by
  cases t with
  | nil => cases h
  | cons c rest =>
    simp only [Text.isWord, Bool.and_eq_true] at h
    exact ⟨c, rest, rfl, h.1⟩

theorem Spells.exists_head (ht : table.Obtained) (h : Spells table t tok) :
    ∃ c rest, t = c :: rest ∧ Begins c tok := by
  cases h with
  | int hds hne _ =>
    obtain ⟨c, rest, rfl⟩ := List.exists_cons_of_ne_nil hne
    exact ⟨c, rest, rfl, hds c List.mem_cons_self⟩
  | decimal hwhole hfraction hne =>
    exact (Decimal.IsMantissa.pointed hwhole hfraction hne).exists_head
  | scientific hmantissa _ =>
    obtain ⟨c, rest, rfl, hc⟩ := hmantissa.exists_head
    exact ⟨c, _, List.cons_append, hc⟩
  | str text => exact ⟨'\'', _, rfl, rfl⟩
  | date hd => exact hd.exists_head
  | datetime hday _ _ _ _ =>
    obtain ⟨c, rest, rfl, hc⟩ := hday.exists_head
    exact ⟨c, _, List.cons_append, hc⟩
  | identifier hword | keyword hword _ => exact Text.exists_head_of_isWord hword
  | @symbol s hs =>
    have hsymbol := ht.isSymbol_of_mem hs
    cases htext : s.toList with
    | nil => simp [SymbolTable.isSymbol, String.toList_eq_nil_iff.mp htext] at hsymbol
    | cons c rest => exact ⟨c, rest, rfl, by rw [Begins, htext]; rfl⟩

end Heads

theorem ends_nil (table : SymbolTable) (t : List Char) (tok : Token) : Ends table t [] tok := by
  cases tok with
  | int | date | str | identifier | keyword => exact Text.stopsAt_nil _
  | float => exact ⟨Text.stopsAt_nil _, fun _ => rfl⟩
  | datetime => exact ⟨Text.stopsAt_nil _, fun _ => rfl⟩
  | symbol =>
    intro s _ hs
    rw [List.append_nil] at hs
    exact hs.length_le

end QueryExpr
