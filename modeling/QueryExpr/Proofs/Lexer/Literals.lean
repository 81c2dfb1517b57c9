/-
Literals.

Literals of different kinds are spelled differently: what follows the digits in front of a text
says which kind of literal it may be.  Where symbols are made of other characters than digits
and quotes, a literal is spelled like nothing else.
-/
import QueryExpr.Proofs.Lexer.Spelling

namespace QueryExpr

namespace Token

/-- The token is a value that is written with digits or in quotes. -/
def IsLiteral : Token → Prop
  | .int _ | .float _ | .str _ | .date _ | .datetime _ => True
  | .identifier _ | .keyword _ | .symbol _ => False

end Token

/-- No symbol has a digit or a quote in it. -/
def SymbolTable.HasPlainSymbols (t : SymbolTable) : Prop :=
  ∀ s ∈ t.symbols, ∀ c ∈ s.toList, c.isDigit = false ∧ c ≠ '\''

namespace SymbolTable

theorem hasPlainSymbols_default : SymbolTable.default.HasPlainSymbols := by
  have hall : (SymbolTable.default.symbols.all fun s =>
      s.toList.all fun c => !c.isDigit && c != '\'') = true := by decide
  simpa [HasPlainSymbols, List.all_eq_true] using hall

theorem HasPlainSymbols.head?_ne_quote {t : SymbolTable} (h : t.HasPlainSymbols) :
    ∀ s ∈ t.symbols, s.toList.head? ≠ some '\'' := by
  intro s hs hhead
  exact (h s hs '\'' (List.mem_of_mem_head? hhead)).2 rfl

end SymbolTable

/-- The kind of literal that a text may be, from what follows the digits in front. -/
def literalKind (t : List Char) : String :=
  match Text.afterDigits t with
  | [] => "int"
  | '\'' :: _ => "string"
  | '-' :: _ => if t.length = 10 then "date" else "datetime"
  | _ => "float"

section Literals

variable {table : SymbolTable} {t after whole fraction mantissa : List Char} {tok tok' : Token}

theorem Decimal.IsMantissa.afterDigits_append {rest : List Char}
    (h : Decimal.IsMantissa whole fraction mantissa) (hrest : Text.StopsAt Char.isDigit rest) :
    (∃ others, Text.afterDigits (mantissa ++ rest) = '.' :: others) ∨
      Text.afterDigits (mantissa ++ rest) = rest := by
  cases h with
  | pointed hwhole _ _ =>
    rw [List.append_assoc, List.cons_append]
    exact Or.inl ⟨_, Text.afterDigits_append hwhole (by simp)⟩
  | plain hwhole _ => exact Or.inr (Text.afterDigits_append hwhole hrest)

theorem SpellsDay.afterDigits_append {d : Date} {rest : List Char} (h : SpellsDay t d) :
    ∃ others, Text.afterDigits (t ++ rest) = '-' :: others := by
  obtain ⟨hyear, -, -, -⟩ := h
  rw [List.append_assoc, List.cons_append]
  exact ⟨_, Text.afterDigits_append hyear.allDigits (by simp)⟩

theorem Spells.literalKind_eq (h : Spells table t tok) (hliteral : tok.IsLiteral) :
    literalKind t = tok.kind := by
  cases h with
  | int hds _ _ =>
    have hafter := Text.afterDigits_append hds (Text.stopsAt_nil _)
    rw [List.append_nil] at hafter
    rw [literalKind, hafter]
    rfl
  | decimal hwhole _ _ =>
    rw [literalKind, Text.afterDigits_append hwhole (by simp)]
    rfl
  | scientific hmantissa hpart =>
    obtain ⟨mark, rest, rfl, hmark⟩ := hpart.exists_mark
    have hstop : Text.StopsAt Char.isDigit (mark :: rest) := by
      rcases hmark with rfl | rfl <;> simp
    rcases hmantissa.afterDigits_append hstop with ⟨others, hafter⟩ | hafter
    · rw [literalKind, hafter]
      rfl
    · rw [literalKind, hafter]
      rcases hmark with rfl | rfl <;> rfl
  | str value => rfl
  | date hd =>
    obtain ⟨others, hafter⟩ : ∃ others, Text.afterDigits (t ++ []) = '-' :: others :=
      hd.afterDigits_append
    rw [List.append_nil] at hafter
    rw [literalKind, hafter]
    exact if_pos hd.length_eq
  | datetime hday _ _ _ _ =>
    obtain ⟨others, hafter⟩ := hday.afterDigits_append
    rw [literalKind, hafter]
    refine if_neg ?_
    rw [List.length_append, hday.length_eq, List.length_cons]
    omega
  | identifier | keyword | symbol => cases hliteral

theorem Decimal.IsMantissa.exists_isDigit (h : Decimal.IsMantissa whole fraction mantissa) :
    ∃ c ∈ mantissa, c.isDigit = true := by
  cases h with
  | pointed hwhole hfraction hne =>
    rcases hne with hne | hne
    · obtain ⟨c, hc⟩ := List.exists_mem_of_ne_nil whole hne
      exact ⟨c, List.mem_append_left _ hc, hwhole c hc⟩
    · obtain ⟨c, hc⟩ := List.exists_mem_of_ne_nil fraction hne
      exact ⟨c, List.mem_append_right _ (List.mem_cons_of_mem _ hc), hfraction c hc⟩
  | plain hwhole hne =>
    obtain ⟨c, hc⟩ := List.exists_mem_of_ne_nil _ hne
    exact ⟨c, hc, hwhole c hc⟩

theorem Spells.exists_isDigit_or_quote (h : Spells table t tok) (hliteral : tok.IsLiteral) :
    ∃ c ∈ t, c.isDigit = true ∨ c = '\'' := by
  cases h with
  | int hds hne _ =>
    obtain ⟨c, hc⟩ := List.exists_mem_of_ne_nil t hne
    exact ⟨c, hc, Or.inl (hds c hc)⟩
  | decimal hwhole hfraction hne =>
    obtain ⟨c, hc, hdigit⟩ := (Decimal.IsMantissa.pointed hwhole hfraction hne).exists_isDigit
    exact ⟨c, hc, Or.inl hdigit⟩
  | scientific hmantissa _ =>
    obtain ⟨c, hc, hdigit⟩ := hmantissa.exists_isDigit
    exact ⟨c, List.mem_append_left _ hc, Or.inl hdigit⟩
  | str value => exact ⟨'\'', List.mem_cons_self, Or.inr rfl⟩
  | date hd =>
    obtain ⟨c, rest, rfl, hc⟩ := hd.exists_head
    exact ⟨c, List.mem_cons_self, Or.inl hc⟩
  | datetime hday _ _ _ _ =>
    obtain ⟨c, rest, rfl, hc⟩ := hday.exists_head
    exact ⟨c, List.mem_cons_self, Or.inl hc⟩
  | identifier | keyword | symbol => cases hliteral

theorem Text.isWordStart_eq_false_of_isDigit {c : Char} (h : c.isDigit = true) :
    Text.isWordStart c = false := by
  have hdigit := Text.toNat_of_isDigit h
  apply Bool.eq_false_iff.mpr
  intro hstart
  have hletter := Text.toNat_of_isWordStart hstart
  omega

theorem Begins.isWordStart_eq_false {c : Char} (h : Begins c tok) (hliteral : tok.IsLiteral) :
    Text.isWordStart c = false := by
  cases tok with
  | int | date | datetime => exact Text.isWordStart_eq_false_of_isDigit h
  | float =>
    rcases h with h | rfl
    · exact Text.isWordStart_eq_false_of_isDigit h
    · decide
  | str =>
    cases h
    decide
  | identifier | keyword | symbol => cases hliteral

/-- No text is both a literal and a word. -/
theorem Spells.isWord_eq_false (ht : table.Obtained) (h : Spells table t tok)
    (hliteral : tok.IsLiteral) : Text.isWord t = false := by
  obtain ⟨c, rest, rfl, hc⟩ := h.exists_head ht
  rw [Text.isWord, hc.isWordStart_eq_false hliteral, Bool.false_and]

theorem Spells.isLiteral_of_isLiteral (ht : table.Obtained) (hsymbols : table.HasPlainSymbols)
    (h : Spells table t tok) (hliteral : tok.IsLiteral) (h' : Spells table t tok') :
    tok'.IsLiteral := by
  cases h' with
  | int | decimal | scientific | str | date | datetime => trivial
  | identifier hword | keyword hword _ =>
    rw [h.isWord_eq_false ht hliteral] at hword
    cases hword
  | symbol hs =>
    obtain ⟨x, hx, hdigit | hquote⟩ := h.exists_isDigit_or_quote hliteral
    · rw [(hsymbols _ hs x hx).1] at hdigit
      cases hdigit
    · exact absurd hquote (hsymbols _ hs x hx).2

theorem Ends.of_kind_eq (h : Ends table t after tok) (hkind : tok.kind = tok'.kind) :
    Ends table t after tok' := by
  cases tok <;> cases tok' <;> first | exact h | exact absurd hkind (by simp [Token.kind])

end Literals

end QueryExpr
