/-
Integers in signed words of 64 bits.

Arithmetic is done on unbounded integers.  A result becomes a word only when it
fits, so nothing ever wraps.
-/

namespace QueryExpr
namespace Integer

/-- The range of a signed word of 64 bits. -/
def Fits (i : Int) : Prop := -0x8000_0000_0000_0000 ≤ i ∧ i < 0x8000_0000_0000_0000

instance (i : Int) : Decidable (Fits i) := inferInstanceAs (Decidable (_ ∧ _))

/-- The word of an integer that fits. -/
def fit? (i : Int) : Option Int64 := if Fits i then some (Int64.ofInt i) else none

theorem toInt_ofInt {i : Int} (h : Fits i) : (Int64.ofInt i).toInt = i :=
  Int64.toInt_ofInt_of_le h.1 h.2

theorem fit?_of_fits {i : Int} (h : Fits i) : fit? i = some (Int64.ofInt i) := if_pos h

theorem fit?_of_not_fits {i : Int} (h : ¬ Fits i) : fit? i = none := if_neg h

theorem toInt_of_fit? {i : Int} {w : Int64} (h : fit? i = some w) : w.toInt = i := by
  unfold fit? at h
  split at h
  · rename_i hi
    cases h
    exact toInt_ofInt hi
  · cases h

theorem fits_toInt (w : Int64) : Fits w.toInt := ⟨Int64.le_toInt w, Int64.toInt_lt w⟩

@[simp] theorem fit?_toInt (w : Int64) : fit? w.toInt = some w := by
  rw [fit?, if_pos (fits_toInt w), Int64.ofInt_toInt]

/-- A signed word lies in the range of signed and unsigned words together. -/
theorem wordRange (w : Int64) :
    -0x8000_0000_0000_0000 ≤ w.toInt ∧ w.toInt < 0x1_0000_0000_0000_0000 :=
  ⟨w.le_toInt, Int.lt_trans w.toInt_lt (by decide)⟩

end Integer
end QueryExpr
