/-
Finite floats.

A float is finite unless its exponent is the highest one, which stands for the infinities and NaN.
So a finite float stays finite when its sign is turned, and it is equal to itself.  Rounding gives
an exponent that is not much larger than the number of digits, so integers of words are near
finite floats.
-/
import Mathlib.Algebra.Group.Int.Defs
import Mathlib.Algebra.Group.Nat.Defs

namespace QueryExpr
namespace Decimal

open Float.Model

/-- The number is zero, or its exponent is below that of the infinities. -/
inductive HasRoom : UnpackedFloat → Prop
  | zero (s : UnpackedFloat.Sign) : HasRoom (.zero s)
  | finite {s : UnpackedFloat.Sign} {m : Nat} {e : Int} {hm : 0 < m} (he : e ≤ 971) :
      HasRoom (.finite s m e hm)

theorem isFinite_unpack_iff (b : BitVec Format.binary64.numBits) :
    (UnpackedFloat.unpack Format.binary64 b).isFinite = true ↔
      UnpackedFloat.unpackExponent b ≠ -1#11 := by
  unfold UnpackedFloat.unpack
  dsimp only
  by_cases htop : UnpackedFloat.unpackExponent b = -1#11
  · rw [if_pos htop]
    have hnot : ¬ UnpackedFloat.unpackExponent b ≠ -1#11 := not_not_intro htop
    split
    · exact iff_of_false nofun hnot
    · exact iff_of_false nofun hnot
  · rw [if_neg htop]
    by_cases hsubnormal : UnpackedFloat.unpackExponent b = 0#11
    · rw [if_pos hsubnormal]
      by_cases hzero : UnpackedFloat.unpackMantissa b = 0#52
      · rw [dif_pos hzero]
        exact iff_of_true rfl htop
      · rw [dif_neg hzero]
        exact iff_of_true rfl htop
    · rw [if_neg hsubnormal]
      exact iff_of_true rfl htop

theorem hasRoom_unpack {b : BitVec Format.binary64.numBits}
    (h : (UnpackedFloat.unpack Format.binary64 b).isFinite = true) :
    HasRoom (UnpackedFloat.unpack Format.binary64 b) := by
  have htop := (isFinite_unpack_iff b).mp h
  have hbias : Format.binary64.exponentBias = 1023 := rfl
  have hlt : (UnpackedFloat.unpackExponent b).toNat < 2047 := by
    have hne : (UnpackedFloat.unpackExponent b).toNat ≠ 2047 :=
      fun h => htop (BitVec.eq_of_toNat_eq h)
    have hbound : (UnpackedFloat.unpackExponent b).toNat < 2 ^ 11 :=
      (UnpackedFloat.unpackExponent b).isLt
    omega
  unfold UnpackedFloat.unpack
  dsimp only
  rw [if_neg htop, hbias]
  by_cases hsubnormal : UnpackedFloat.unpackExponent b = 0#11
  · rw [if_pos hsubnormal]
    by_cases hzero : UnpackedFloat.unpackMantissa b = 0#52
    · rw [dif_pos hzero]
      exact .zero _
    · rw [dif_neg hzero, hsubnormal]
      exact .finite (by decide)
  · rw [if_neg hsubnormal]
    exact .finite (by omega)

theorem isFinite_unpack_pack {f : UnpackedFloat} (h : HasRoom f) :
    (UnpackedFloat.unpack Format.binary64 (UnpackedFloat.pack Format.binary64 f)).isFinite =
      true := by
  rw [isFinite_unpack_iff]
  cases h with
  | zero s =>
    rw [UnpackedFloat.pack.eq_def]
    dsimp only
    rw [UnpackedFloat.packedZero, UnpackedFloat.unpackExponent_packComponents]
    decide
  | finite he =>
    have hbias : Format.binary64.exponentBias = 1023 := rfl
    rw [UnpackedFloat.pack.eq_def, hbias]
    dsimp only
    rw [if_neg (by omega)]
    split
    · rw [UnpackedFloat.unpackExponent_packComponents]
      intro htop
      have hnat := congrArg BitVec.toNat htop
      have hmax : (-1#11).toNat = 2047 := rfl
      rw [BitVec.toNat_ofNat, hmax, Nat.mod_eq_of_lt (by omega)] at hnat
      omega
    · rw [UnpackedFloat.unpackExponent_packComponents]
      decide

theorem hasRoom_neg {f : UnpackedFloat} (h : HasRoom f) : HasRoom f.neg := by
  cases h with
  | zero s => exact .zero _
  | finite he => exact .finite he

theorem isFinite_pack {f : UnpackedFloat} (h : HasRoom f) :
    (Float.ofModel (.pack f)).isFinite = true := isFinite_unpack_pack h

theorem isFinite_neg {x : Float} (h : x.isFinite = true) : (-x).isFinite = true :=
  isFinite_pack (hasRoom_neg (hasRoom_unpack h))

theorem beq_self_of_isFinite {x : Float} (h : x.isFinite = true) : (x == x) = true := by
  have hmodel : x.toModel.unpack.isFinite = true := h
  show x.toModel.unpack.beq x.toModel.unpack = true
  generalize x.toModel.unpack = f at hmodel
  cases f with
  | zero s => rfl
  | finite s m e hm =>
    have hsame : (compare e e).then (compare m m) = .eq := by
      rw [Std.ReflOrd.compare_self, Std.ReflOrd.compare_self]
      rfl
    cases s with
    | positive =>
      show (some ((compare e e).then (compare m m)) == some .eq) = true
      rw [hsame]
      rfl
    | negative =>
      show (some ((compare e e).then (compare m m)).swap == some .eq) = true
      rw [hsame]
      rfl
  | infinity s => cases hmodel
  | notANumber => cases hmodel

section Rounding

open UnpackedFloat

theorem mantissa_shiftRight (em : ExtendedMantissa) (n : Nat) :
    (em >>> n).mantissa ≤ em.mantissa := by
  induction n with
  | zero => exact Nat.le_refl _
  | succ n ih => exact Nat.le_trans (Nat.div_le_self _ 2) ih

theorem roundedMantissa_le (em : ExtendedMantissa) : em.roundedMantissa ≤ em.mantissa + 1 := by
  rcases em with ⟨m, roundBit, stickyBit⟩
  cases roundBit <;> cases stickyBit <;>
    simp only [ExtendedMantissa.roundedMantissa, ExtendedMantissa.accuracy,
      Accuracy.roundToNearestEven] <;> omega

/-- Shifting to the target exponent leaves the exponent at most as high as the number is wide. -/
theorem shiftToTargetExponent_le (m : Nat) (e : Int) (he : -1074 ≤ e) (a : Accuracy) :
    (shiftToTargetExponent Format.binary64 m e a).1.mantissa ≤ m ∧
      -1074 ≤ (shiftToTargetExponent Format.binary64 m e a).2 ∧
      (shiftToTargetExponent Format.binary64 m e a).2 ≤ e + m.log2 + 1 := by
  have hmantissa : (ExtendedMantissa.ofMantissaAndAccuracy m a).mantissa = m := by
    cases a with
    | exact => rfl
    | inexact relativeToHalf => cases relativeToHalf <;> rfl
  have htarget : Format.binary64.targetExponent (totalExponent m e) =
      max (m.log2 + 1 + e - 53) (-1074) := rfl
  simp only [shiftToTargetExponent, shiftToExponent, htarget]
  refine ⟨?_, by omega, by omega⟩
  exact Nat.le_trans (mantissa_shiftRight _ _) (Nat.le_of_eq hmantissa)

theorem log2_le_of_le {m k : Nat} (h : m ≤ 2 ^ k) : m.log2 ≤ k := by
  rcases Nat.eq_zero_or_pos m with rfl | hpos
  · rw [Nat.log2_zero]
    exact Nat.zero_le k
  · refine Nat.le_of_lt_succ ((Nat.log2_lt (Nat.ne_of_gt hpos)).mpr ?_)
    exact Nat.lt_of_le_of_lt h (Nat.pow_lt_pow_succ (by decide))

/-- Rounding to the width of a float does not make a number of few digits infinite. -/
theorem hasRoom_roundWithAccuracy {s : Sign} {m k : Nat} {e : Int} {a : Accuracy}
    (hm : m < 2 ^ k) (hk : k ≤ 400) (hlow : -1074 ≤ e) (hhigh : e ≤ 0) :
    HasRoom (roundWithAccuracy Format.binary64 s m e a) := by
  obtain ⟨hmantissa, hlow₁, hhigh₁⟩ := shiftToTargetExponent_le m e hlow a
  rw [roundWithAccuracy]
  dsimp only
  generalize shiftToTargetExponent Format.binary64 m e a = shifted at hmantissa hlow₁ hhigh₁ ⊢
  have hrounded := roundedMantissa_le shifted.1
  have hlog := log2_le_of_le (Nat.le_of_lt hm)
  have hlog' : shifted.1.roundedMantissa.log2 ≤ k := log2_le_of_le (by omega)
  obtain ⟨-, -, hhigh₂⟩ :=
    shiftToTargetExponent_le shifted.1.roundedMantissa shifted.2 hlow₁ .exact
  by_cases hzero : (shiftToTargetExponent Format.binary64 shifted.1.roundedMantissa shifted.2
    .exact).1.mantissa = 0
  · rw [dif_pos hzero]
    exact .zero s
  · rw [dif_neg hzero]
    exact .finite (by omega)

end Rounding

theorem ofScientific_zero {n : Nat} (hn : n ≠ 0) :
    UnpackedFloat.ofScientific Format.binary64 n 0 =
      UnpackedFloat.roundWithAccuracy Format.binary64 .positive (n <<< 53) (-53) .exact := by
  have hhigh : ¬ (0 : Int) > 2 ^ Format.binary64.exponentBits := by decide
  have hlow : ¬ (0 : Int) < -((2 ^ Format.binary64.exponentBits : Int) + n.log2) := by
    have hpow : (2 : Int) ^ Format.binary64.exponentBits = 2048 := rfl
    rw [hpow]
    omega
  have hsign : UnpackedFloat.Sign.positive * .positive = .positive := rfl
  have hbits : Format.binary64.mantissaBits = 53 := rfl
  rw [UnpackedFloat.ofScientific, dif_neg hn, if_neg hhigh, if_neg hlow, if_pos (Int.le_refl 0)]
  show UnpackedFloat.roundWithAccuracy Format.binary64 (.positive * .positive)
    (n <<< Format.binary64.mantissaBits * 10 ^ Int.toNat 0)
    (-(Format.binary64.mantissaBits : Int) + 0) .exact = _
  rw [hsign, hbits, Int.toNat_zero, Nat.pow_zero, Nat.mul_one, Int.add_zero]
  rfl

/-- A number that has as many digits as a float, and no more than a word of 64 bits, is near a
finite float. -/
theorem isFinite_ofNat {n : Nat} (hlow : 2 ^ 53 ≤ n) (hhigh : n < 2 ^ 64) :
    (Float.ofNat n).isFinite = true := by
  have hne : n ≠ 0 := by omega
  have hwidth : n <<< 53 < 2 ^ 117 := by
    rw [Nat.shiftLeft_eq]
    omega
  have hofNat : Float.ofNat n =
      Float.ofModel (.pack (UnpackedFloat.ofScientific Format.binary64 n 0)) := by
    show Float.ofScientific n false 0 = _
    rw [Float.ofScientific, dif_neg (by omega)]
    rfl
  rw [hofNat, ofScientific_zero hne]
  exact isFinite_pack (hasRoom_roundWithAccuracy hwidth (by decide) (by decide) (by decide))

/-- An integer that an unsigned word holds and no signed one is near a finite float. -/
theorem isFinite_ofInt {i : Int} (hlow : 2 ^ 63 ≤ i) (hhigh : i < 2 ^ 64) :
    (Float.ofInt i).isFinite = true := by
  obtain ⟨n, rfl⟩ := Int.eq_ofNat_of_zero_le (show 0 ≤ i by omega)
  exact isFinite_ofNat (by omega) (by omega)

end Decimal
end QueryExpr
