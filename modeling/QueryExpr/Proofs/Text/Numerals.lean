/-
Numerals and the numbers they stand for.

A number written with zeros in front has the width asked for when it fits, is made of digits
alone, and its value is the number.  Different numbers have different numerals in any base that
has a digit for each remainder.
-/
import Mathlib.Algebra.Group.Nat.Defs
import QueryExpr.Proofs.Text.Runs

namespace QueryExpr
namespace Text

variable {width n : Nat}

theorem numeral_eq_ofDigitChars (ds : List Char) : numeral ds = Nat.ofDigitChars 10 ds 0 := rfl

theorem allDigits_padded (width n : Nat) : AllDigits (padded width n) := by
  intro c hc
  rcases List.mem_append.mp hc with hc | hc
  · rw [List.eq_of_mem_replicate hc]
    rfl
  · exact Nat.isDigit_of_mem_toDigits (by decide) (by decide) hc

theorem padded_ne_nil (width n : Nat) : padded width n ≠ [] :=
  fun h => Nat.toDigits_ne_nil (List.append_eq_nil_iff.mp h).2

theorem length_padded (hwidth : 0 < width) (h : n < 10 ^ width) :
    (padded width n).length = width := by
  have hdigits : (decimal n).length ≤ width :=
    (Nat.length_toDigits_le_iff (by decide) hwidth).mpr h
  rw [padded, List.length_append, List.length_replicate]
  omega

theorem isNumber_padded (hwidth : 0 < width) (h : n < 10 ^ width) :
    IsNumber width (padded width n) :=
  ⟨length_padded hwidth h, allDigits_padded width n⟩

@[simp] theorem numeral_padded (width n : Nat) : numeral (padded width n) = n := by
  rw [numeral_eq_ofDigitChars, padded, Nat.ofDigitChars_append, Nat.ofDigitChars_replicate_zero,
    Nat.mul_zero]
  exact Nat.ofDigitChars_ten_toDigits

theorem ofDigitChars_lt {ds : List Char} (h : AllDigits ds) (init : Nat) :
    Nat.ofDigitChars 10 ds init < 10 ^ ds.length * (init + 1) := by
  induction ds generalizing init with
  | nil => simp
  | cons c ds ih =>
    have hc := toNat_of_isDigit (h c List.mem_cons_self)
    have hrest := ih (fun d hd => h d (List.mem_cons_of_mem c hd)) (10 * init + (c.toNat - 48))
    have hstep : 10 * init + (c.toNat - 48) + 1 ≤ 10 * (init + 1) := by omega
    calc Nat.ofDigitChars 10 (c :: ds) init
        < 10 ^ ds.length * (10 * init + (c.toNat - 48) + 1) := hrest
      _ ≤ 10 ^ ds.length * (10 * (init + 1)) := Nat.mul_le_mul_left _ hstep
      _ = 10 ^ (c :: ds).length * (init + 1) := by
        rw [List.length_cons, Nat.pow_succ, Nat.mul_assoc]

theorem numeral_lt {ds : List Char} (h : IsNumber width ds) : numeral ds < 10 ^ width := by
  have hlt := ofDigitChars_lt h.allDigits 0
  rwa [h.length_eq, Nat.mul_one] at hlt

section Base

variable {b m : Nat}

theorem digitChar_inj (hm : m < 16) (hn : n < 16) (h : Nat.digitChar m = Nat.digitChar n) :
    m = n := by
  have hall : ∀ m < 16, ∀ n < 16, Nat.digitChar m = Nat.digitChar n → m = n := by decide
  exact hall m hm n hn h

theorem exists_digitChar_of_mem_toDigits (hb : 1 < b) {c : Char} (hc : c ∈ Nat.toDigits b n) :
    ∃ d, c = Nat.digitChar d := by
  induction n using Nat.strongRecOn with
  | ind n ih =>
    rw [Nat.toDigits_eq_if hb] at hc
    split at hc
    · exact ⟨n, List.mem_singleton.mp hc⟩
    · rcases List.mem_append.mp hc with hc | hc
      · exact ih (n / b) (Nat.div_lt_self (by omega) hb) hc
      · exact ⟨n % b, List.mem_singleton.mp hc⟩

theorem toDigits_inj (hb : 1 < b) (hb' : b ≤ 16) (h : Nat.toDigits b m = Nat.toDigits b n) :
    m = n := by
  induction m using Nat.strongRecOn generalizing n with
  | ind m ih =>
    rw [Nat.toDigits_eq_if (n := m) hb, Nat.toDigits_eq_if (n := n) hb] at h
    have hone : ∀ (k d e : Nat), [Nat.digitChar d] ≠ Nat.toDigits b k ++ [Nat.digitChar e] := by
      intro k d e heq
      have hlength := congrArg List.length heq
      have hpos := List.length_pos_iff.mpr (Nat.toDigits_ne_nil : Nat.toDigits b k ≠ [])
      simp only [List.length_append, List.length_singleton] at hlength
      omega
    split at h <;> split at h
    · exact digitChar_inj (by omega) (by omega) (List.singleton_inj.mp h)
    · exact absurd h (hone _ _ _)
    · exact absurd h.symm (hone _ _ _)
    · obtain ⟨hinit, hlast⟩ := List.append_inj' h rfl
      have hdiv := ih (m / b) (Nat.div_lt_self (by omega) hb) hinit
      have hmod : m % b = n % b := by
        refine digitChar_inj ?_ ?_ (List.singleton_inj.mp hlast)
        · exact Nat.lt_of_lt_of_le (Nat.mod_lt m (by omega)) hb'
        · exact Nat.lt_of_lt_of_le (Nat.mod_lt n (by omega)) hb'
      rw [← Nat.div_add_mod m b, ← Nat.div_add_mod n b, hdiv, hmod]

theorem decimal_inj (h : decimal m = decimal n) : m = n := toDigits_inj (by decide) (by decide) h

theorem not_mem_signedDecimal {c : Char} (hsign : c ≠ '-') (hdigit : c.isDigit = false) (i : Int) :
    c ∉ signedDecimal i := by
  have hdecimal : c ∉ decimal i.natAbs := by
    intro hc
    rw [Nat.isDigit_of_mem_toDigits (by decide) (by decide) hc] at hdigit
    cases hdigit
  rw [signedDecimal]
  split
  · exact List.not_mem_cons_of_ne_of_not_mem hsign hdecimal
  · exact hdecimal

theorem signedDecimal_inj {i j : Int} (h : signedDecimal i = signedDecimal j) : i = j := by
  have hsign : ∀ k : Nat, ∀ ds, decimal k ≠ '-' :: ds := by
    intro k ds heq
    have hmem : '-' ∈ decimal k := heq ▸ List.mem_cons_self
    exact absurd (Nat.isDigit_of_mem_toDigits (by decide) (by decide) hmem) (by decide)
  rw [signedDecimal, signedDecimal] at h
  split at h <;> split at h
  · have habs := decimal_inj (List.cons.inj h).2
    omega
  · exact absurd h.symm (hsign _ _)
  · exact absurd h (hsign _ _)
  · have habs := decimal_inj h
    omega

end Base

end Text
end QueryExpr
