/-
Chains of signs.

A sign in front of a folded sign is folded into it, and whether the tree is negated depends only on
how many of the signs are negative.  The negative of the smallest integer, which cannot be written
down, stays behind as a sign in front of it, so the next sign finds the integer unchanged.  A float
takes in every sign by a negation of its own, and trees that are folded to one are left out.
-/
import QueryExpr.Proofs.Fold.Normal

namespace QueryExpr
namespace Expr

/-- The signs in front of a tree, the first one outermost. -/
def signs (negatives : List Bool) (e : Expr) : Expr := negatives.foldr .sign e

/-- An odd number of the signs are negative. -/
def parity (negatives : List Bool) : Bool := negatives.foldr (· != ·) false

/-- The tree behind its signs. -/
def unsigned : Expr → Expr
  | .sign _ x => x.unsigned
  | e => e

@[simp] theorem signs_cons (negative : Bool) (negatives : List Bool) (e : Expr) :
    signs (negative :: negatives) e = .sign negative (signs negatives e) := rfl

@[simp] theorem parity_cons (negative : Bool) (negatives : List Bool) :
    parity (negative :: negatives) = (negative != parity negatives) := rfl

section Signs

variable {x : Expr} {f g : Bool}

theorem foldSign_foldSign_int (v : Int64) :
    foldSign f (foldSign g (int v)).toInt = foldSign (f != g) (int v) := by
  cases g with
  | false =>
    rw [Bool.bne_false]
    rfl
  | true =>
    rw [foldSign_true_int]
    cases hfit : Integer.fit? (-v.toInt) with
    | none => rfl
    | some w =>
      have hw := Integer.toInt_of_fit? hfit
      cases f with
      | false =>
        show int w = foldSign true (int v)
        rw [foldSign_true_int, hfit]
        rfl
      | true =>
        -- the negative of a negative fits, as it is the integer itself
        show foldSign true (int w) = int v
        rw [foldSign_true_int, hw, Int.neg_neg, Integer.fit?_toInt]
        rfl

/-- A sign in front of a sign is one sign, whatever the first one was folded to. -/
theorem foldSign_foldSign (hx : ∀ y, x.unsigned ≠ float y) :
    foldSign f (foldSign g x).toInt = foldSign (f != g) x := by
  induction x generalizing g with
  | leaf v =>
    cases v with
    | int v => exact foldSign_foldSign_int v
    | float y => exact absurd rfl (hx y)
    | _ => rfl
  | sign inner y ih =>
    show foldSign f (foldSign (g != inner) y).toInt = foldSign ((f != g) != inner) y
    rw [ih hx, Bool.bne_assoc]
  | _ => rfl

/-- Behind the signs of a settled tree there is a float only if there are none. -/
theorem Settled.unsigned_ne_float (h : x.Settled) (hx : ∀ y, x ≠ float y) (y : Float) :
    x.unsigned ≠ float y := by
  induction x with
  | sign negative z ih =>
    obtain ⟨hz, hread, hrule⟩ := h
    have hnode : NormalNode (.sign negative z) := normalNode_sign_iff.mpr ⟨hread, hrule⟩
    refine ih hz fun y' hy' => ?_
    subst hy'
    simp [NormalNode, kind] at hnode
  | _ => exact hx y

theorem unsigned_toInt_ne_float {y : Float} (h : x.unsigned ≠ float y) :
    x.toInt.unsigned ≠ float y := by
  cases x with
  | leaf v => cases v <;> simp_all [toInt, unsigned]
  | _ => exact h

end Signs

theorem fold_signs_cons {e : Expr} (he : ∀ x, e.fold ≠ float x) (negative : Bool)
    (negatives : List Bool) :
    (signs (negative :: negatives) e).fold =
      foldSign (parity (negative :: negatives)) e.fold.toInt := by
  induction negatives generalizing negative with
  | nil =>
    rw [parity_cons, parity, List.foldr_nil, Bool.bne_false]
    rfl
  | cons inner negatives ih =>
    have hfloat := fun y => unsigned_toInt_ne_float ((settled_fold e).unsigned_ne_float he y)
    rw [signs_cons, fold, ih, foldSign_foldSign hfloat, parity_cons negative]

/-- A tree that is not folded to a float is folded behind any signs as behind the one sign that is
negative when an odd number of them is. -/
theorem fold_signs {e : Expr} (he : ∀ x, e.fold ≠ float x) {negatives : List Bool}
    (hne : negatives ≠ []) :
    (signs negatives e).fold = (Expr.sign (parity negatives) e).fold := by
  obtain ⟨negative, negatives, rfl⟩ := List.exists_cons_of_ne_nil hne
  rw [fold_signs_cons he, fold]

/-- Of three negative signs of the smallest integer one is left, and two or none of them leave the
integer.  A truth value behind signs is a number, and NULL stays.  A sign that a tree is folded to
is joined with those in front of it. -/
theorem fold_signs_kept :
    (signs [true, true, true] (int Int64.minValue)).fold = .sign true (int Int64.minValue) ∧
      (signs [true, false, true] (int Int64.minValue)).fold = int Int64.minValue ∧
      (signs [false, true] (bool true)).fold = int (-1) ∧
      (signs [true, true] null).fold = null ∧
      (signs [true, false] (.sign true (column ⟨["a"]⟩))).fold =
        .sign false (column ⟨["a"]⟩) := by
  have hsmallest : ∀ x, (int Int64.minValue).fold ≠ float x := fun x h => by cases h
  have hbool : ∀ x, (bool true).fold ≠ float x := fun x h => by cases h
  have hnull : ∀ x, null.fold ≠ float x := fun x h => by cases h
  have hsign : ∀ x, (Expr.sign true (column ⟨["a"]⟩)).fold ≠ float x := fun x h => by cases h
  refine ⟨?_, ?_, ?_, ?_, ?_⟩
  · exact (fold_signs hsmallest (by decide)).trans (by rfl)
  · exact (fold_signs hsmallest (by decide)).trans (by rfl)
  · exact (fold_signs hbool (by decide)).trans (by rfl)
  · exact (fold_signs hnull (by decide)).trans (by rfl)
  · exact (fold_signs hsign (by decide)).trans (by rfl)

end Expr
end QueryExpr
