/-
Runs of characters of one class.

A run at the front of a text ends where the class stops.  A newline ends the runs of every
class that it does not belong to, so a run in the first lines of a text does not see the
lines behind them.
-/
import Mathlib.Data.List.TakeWhile
import QueryExpr.Text.Blank
import QueryExpr.Text.Digits
import QueryExpr.Text.Word

namespace QueryExpr
namespace Text

/-- The text does not start with a character of the class. -/
def StopsAt (p : Char → Bool) (text : List Char) : Prop := ∀ c ∈ text.head?, p c = false

section Runs

variable {p : Char → Bool} {c : Char} {run rest text more : List Char}

@[simp] theorem stopsAt_nil (p : Char → Bool) : StopsAt p [] := nofun

@[simp] theorem stopsAt_cons : StopsAt p (c :: rest) ↔ p c = false := by
  simp [StopsAt]

theorem stopsAt_dropWhile (p : Char → Bool) (text : List Char) :
    StopsAt p (text.dropWhile p) := by
  intro c hc
  have hhead := List.head?_dropWhile_not p text
  rw [Option.mem_def.mp hc] at hhead
  exact hhead

theorem stopsAt_append_newline (hp : p '\n' = false) :
    StopsAt p (text ++ '\n' :: more) ↔ StopsAt p text := by
  cases text with
  | nil => simp [hp]
  | cons c text => simp

theorem takeWhile_append_newline (hp : p '\n' = false) :
    (text ++ '\n' :: more).takeWhile p = text.takeWhile p := by
  induction text with
  | nil => simp [hp]
  | cons c text ih =>
    by_cases hc : p c = true
    · simp [hc, ih]
    · simp [hc]

theorem stopsAt_of_takeWhile_eq_nil (h : text.takeWhile p = []) : StopsAt p text := by
  have htext := List.takeWhile_append_dropWhile (p := p) (l := text)
  rw [h, List.nil_append] at htext
  exact htext ▸ stopsAt_dropWhile p text

theorem takeWhile_append_of_stopsAt (hrun : ∀ c ∈ run, p c = true) (hrest : StopsAt p rest) :
    (run ++ rest).takeWhile p = run := by
  have hnone : rest.takeWhile p = [] := by
    cases rest with
    | nil => rfl
    | cons c rest => simp [stopsAt_cons.mp hrest]
  rw [List.takeWhile_append_of_pos hrun, hnone, List.append_nil]

theorem dropWhile_append_of_stopsAt (hrun : ∀ c ∈ run, p c = true) (hrest : StopsAt p rest) :
    (run ++ rest).dropWhile p = rest := by
  have hall : rest.dropWhile p = rest := by
    cases rest with
    | nil => rfl
    | cons c rest => simp [stopsAt_cons.mp hrest]
  rw [List.dropWhile_append_of_pos hrun, hall]

/-- What stands before the first stop and what stands behind it can be read off. -/
theorem append_stop_inj {stop : Char} {run' rest' : List Char} (hrun : stop ∉ run)
    (hrun' : stop ∉ run') (h : run ++ stop :: rest = run' ++ stop :: rest') :
    run = run' ∧ rest = rest' := by
  have hne : ∀ text : List Char, stop ∉ text → ∀ c ∈ text, (c != stop) = true := by
    intro text htext c hc
    exact bne_iff_ne.mpr fun heq => htext (heq ▸ hc)
  have hstop : ∀ text, StopsAt (· != stop) (stop :: text) := fun text =>
    stopsAt_cons.mpr (bne_self_eq_false stop)
  have hfront := congrArg (List.takeWhile (· != stop)) h
  rw [takeWhile_append_of_stopsAt (hne _ hrun) (hstop _),
    takeWhile_append_of_stopsAt (hne _ hrun') (hstop _)] at hfront
  subst hfront
  exact ⟨rfl, (List.cons.inj (List.append_cancel_left h)).2⟩

end Runs

theorem toNat_of_isDigit {c : Char} (h : c.isDigit = true) : 48 ≤ c.toNat ∧ c.toNat ≤ 57 := by
  simp only [Char.isDigit, Bool.and_eq_true, decide_eq_true_eq, UInt32.le_iff_toNat_le] at h
  exact h

theorem toNat_of_isWordStart {c : Char} (h : isWordStart c = true) :
    65 ≤ c.toNat ∧ c.toNat ≤ 122 := by
  have hparts : ((c.isUpper || c.isLower) || c == '_') = true := h
  simp only [Bool.or_eq_true, beq_iff_eq] at hparts
  rcases hparts with (hupper | hlower) | rfl
  · have hrange : 65 ≤ c.val ∧ c.val ≤ 90 := of_decide_eq_true hupper
    have hlow : 65 ≤ c.toNat := UInt32.le_iff_toNat_le.mp hrange.1
    have hhigh : c.toNat ≤ 90 := UInt32.le_iff_toNat_le.mp hrange.2
    omega
  · have hrange : (decide (97 ≤ c.val) && decide (c.val ≤ 122)) = true := hlower
    simp only [Bool.and_eq_true, decide_eq_true_eq, UInt32.le_iff_toNat_le] at hrange
    have hlow : 97 ≤ c.toNat := hrange.1
    have hhigh : c.toNat ≤ 122 := hrange.2
    omega
  · decide

section Visible

variable {c : Char}

theorem isBlank_eq_false_of_visible (hlow : 0x20 < c.toNat) (hhigh : c.toNat < 0x7F) :
    isBlank c = false := by
  simp only [isBlank, Bool.or_eq_false_iff, Bool.and_eq_false_iff, decide_eq_false_iff_not,
    beq_eq_false_iff_ne]
  omega

theorem isBlank_eq_false_of_isDigit (h : c.isDigit = true) : isBlank c = false := by
  have hrange := toNat_of_isDigit h
  exact isBlank_eq_false_of_visible (by omega) (by omega)

theorem isBlank_eq_false_of_isWordStart (h : isWordStart c = true) : isBlank c = false := by
  have hrange := toNat_of_isWordStart h
  exact isBlank_eq_false_of_visible (by omega) (by omega)

end Visible

def AllDigits (ds : List Char) : Prop := ∀ c ∈ ds, c.isDigit = true

/-- A number of exactly so many digits. -/
structure IsNumber (width : Nat) (ds : List Char) : Prop where
  length_eq : ds.length = width
  allDigits : AllDigits ds

variable {ds rest text w : List Char}

theorem AllDigits.not_mem {c : Char} (h : AllDigits ds) (hc : c.isDigit = false) : c ∉ ds := by
  intro hmem
  rw [h c hmem] at hc
  cases hc

theorem AllDigits.append {ds' : List Char} (h : AllDigits ds) (h' : AllDigits ds') :
    AllDigits (ds ++ ds') :=
  fun c hc => (List.mem_append.mp hc).elim (h c) (h' c)

theorem AllDigits.take (h : AllDigits ds) (n : Nat) : AllDigits (ds.take n) :=
  fun c hc => h c (List.mem_of_mem_take hc)

theorem AllDigits.drop (h : AllDigits ds) (n : Nat) : AllDigits (ds.drop n) :=
  fun c hc => h c (List.mem_of_mem_drop hc)

theorem allDigits_digits (text : List Char) : AllDigits (digits text) :=
  fun _ hc => List.mem_takeWhile_imp hc

theorem stopsAt_afterDigits (text : List Char) : StopsAt Char.isDigit (afterDigits text) :=
  stopsAt_dropWhile Char.isDigit text

theorem digits_append (hds : AllDigits ds) (hrest : StopsAt Char.isDigit rest) :
    digits (ds ++ rest) = ds := takeWhile_append_of_stopsAt hds hrest

theorem afterDigits_append (hds : AllDigits ds) (hrest : StopsAt Char.isDigit rest) :
    afterDigits (ds ++ rest) = rest := dropWhile_append_of_stopsAt hds hrest

theorem startsWithDigit_eq_false_iff :
    startsWithDigit text = false ↔ StopsAt Char.isDigit text := by
  cases text with
  | nil => simp [startsWithDigit]
  | cons c rest => simp [startsWithDigit]

theorem not_startsWithDigit_iff : ¬ startsWithDigit text = true ↔ StopsAt Char.isDigit text := by
  rw [Bool.not_eq_true, startsWithDigit_eq_false_iff]

/-- The word of a text is what stands before the place where words stop. -/
theorem word_eq_iff (hne : w ≠ []) :
    word text = w ↔ ∃ rest, text = w ++ rest ∧ isWord w = true ∧ StopsAt isWordPart rest := by
  constructor
  · rintro rfl
    cases text with
    | nil => exact absurd rfl hne
    | cons c text =>
      rw [word] at hne ⊢
      by_cases hc : isWordStart c = true
      · rw [if_pos hc]
        refine ⟨text.dropWhile isWordPart, ?_, ?_, stopsAt_dropWhile _ _⟩
        · rw [List.cons_append, List.takeWhile_append_dropWhile]
        · simp only [isWord, hc, Bool.true_and, List.all_eq_true]
          exact fun d hd => List.mem_takeWhile_imp hd
      · rw [if_neg hc] at hne
        exact absurd rfl hne
  · rintro ⟨rest, rfl, hword, hrest⟩
    cases w with
    | nil => exact absurd rfl hne
    | cons c w =>
      simp only [isWord, Bool.and_eq_true, List.all_eq_true] at hword
      rw [List.cons_append, word, if_pos hword.1, takeWhile_append_of_stopsAt hword.2 hrest]

theorem isWord_append (hword : isWord w = true) (hrest : ∀ c ∈ rest, isWordPart c = true) :
    isWord (w ++ rest) = true := by
  cases w with
  | nil => cases hword
  | cons c w =>
    simp only [List.cons_append, isWord, Bool.and_eq_true, List.all_eq_true] at hword ⊢
    refine ⟨hword.1, fun x hx => ?_⟩
    exact (List.mem_append.mp hx).elim (hword.2 x) (hrest x)

theorem isWordPart_of_isWord (h : isWord w = true) : ∀ c ∈ w, isWordPart c = true := by
  cases w with
  | nil => nofun
  | cons c w =>
    simp only [isWord, Bool.and_eq_true, List.all_eq_true] at h
    have hc : isWordPart c = true := by
      have hstart := h.1
      simp only [isWordStart, Bool.or_eq_true] at hstart
      simp only [isWordPart, Char.isAlphanum, Bool.or_eq_true]
      exact hstart.imp_left Or.inl
    exact List.forall_mem_cons.mpr ⟨hc, h.2⟩

theorem not_mem_of_isWord {c : Char} (h : isWord w = true) (hc : isWordPart c = false) :
    c ∉ w := by
  intro hmem
  rw [isWordPart_of_isWord h c hmem] at hc
  cases hc

theorem ne_nil_of_isWord (h : isWord w = true) : w ≠ [] := by
  rintro rfl
  cases h

end Text
end QueryExpr
