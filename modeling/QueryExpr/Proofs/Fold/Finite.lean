/-
Floats in folded trees.

A rule makes a float in two ways, by turning the sign of one and by an operation that is carried
out only if its result is finite.  So when all floats of a tree are finite, those of the folded
tree are.  A tree without NaN is the same as itself even where floats are compared as numbers, and
trees that are read from JSON have finite floats only.
-/
import QueryExpr.Expr.Simplify
import QueryExpr.Proofs.Decimal.Finite
import QueryExpr.Proofs.Expr.Encoding
import QueryExpr.Proofs.Fold.Settled

namespace QueryExpr
namespace Expr

/-- No float of the tree is infinite or NaN. -/
def HasFiniteFloats (e : Expr) : Prop := ∀ x, .float x ∈ e.leaves → x.isFinite = true

namespace HasFiniteFloats

variable {x l r : Expr} {y : Float}

theorem of_float (h : y.isFinite = true) : (float y).HasFiniteFloats := by
  intro z hz
  cases List.mem_singleton.mp hz
  exact h

theorem isFinite (h : (float y).HasFiniteFloats) : y.isFinite = true :=
  h y List.mem_cons_self

theorem of_leaf {v : Leaf} (h : ∀ y, v ≠ .float y) : (Expr.leaf v).HasFiniteFloats := by
  intro y hy
  exact absurd (List.mem_singleton.mp hy).symm (h y)

theorem of_pair (hl : l.HasFiniteFloats) (hr : r.HasFiniteFloats) (y : Float)
    (hy : .float y ∈ l.leaves ++ r.leaves) : y.isFinite = true :=
  (List.mem_append.mp hy).elim (hl y) (hr y)

theorem of_operand {e : Expr} (h : e.HasFiniteFloats) (hx : x ∈ e.operands) :
    x.HasFiniteFloats := by
  intro y hy
  cases e with
  | leaf v => cases hx
  | sign _ z | not z | is z _ =>
    obtain rfl := List.mem_singleton.mp hx
    exact h y hy
  | arith _ l r | logic _ l r | compare _ l r =>
    have hparts : x = l ∨ x = r := by simpa [operands] using hx
    rcases hparts with rfl | rfl
    · exact h y (List.mem_append_left _ hy)
    · exact h y (List.mem_append_right _ hy)

theorem toInt (h : x.HasFiniteFloats) : x.toInt.HasFiniteFloats := by
  cases x with
  | leaf v =>
    cases v with
    | bool b => exact of_leaf nofun
    | _ => exact h
  | _ => exact h

theorem toBool (h : x.HasFiniteFloats) : x.toBool.HasFiniteFloats := by
  cases x with
  | leaf v =>
    cases v with
    | int _ | float _ => exact of_leaf nofun
    | _ => exact h
  | _ => exact h

theorem foldSign (negative : Bool) (hx : x.HasFiniteFloats) :
    (foldSign negative x).HasFiniteFloats := by
  induction x generalizing negative with
  | sign inner y ih => exact ih (negative != inner) hx
  | _ =>
    cases foldSign_outcome negative _ with
    | kept h =>
      rw [h]
      exact hx
    | int v w _ _ h | null _ h =>
      rw [h]
      exact of_leaf nofun
    | float y hy h =>
      rw [hy] at hx
      rw [h]
      cases negative with
      | false => exact hx
      | true => exact of_float (Decimal.isFinite_neg hx.isFinite)
    | again inner y hsign => cases hsign

theorem foldArith (op : ArithOp) (hl : l.HasFiniteFloats) (hr : r.HasFiniteFloats) :
    (foldArith op l r).HasFiniteFloats := by
  cases foldArith_outcome op l r with
  | kept h =>
    rw [h]
    exact of_pair hl hr
  | evaluated a b _ _ _ h =>
    cases h with
    | int v w u _ _ _ h =>
      rw [h]
      exact of_leaf nofun
    | float y hfinite _ h =>
      rw [h]
      exact of_float hfinite
  | byZero _ _ h | null _ h | timesZero _ _ h | zeroBy _ _ _ h =>
    rw [h]
    exact of_leaf nofun
  | addZero _ _ h =>
    rw [h]
    exact hr
  | lessZero _ _ h | byOne _ _ h =>
    rw [h]
    exact hl
  | zeroLess _ _ h =>
    rw [h]
    exact hr.foldSign true

theorem foldNot (hx : x.HasFiniteFloats) : (foldNot x).HasFiniteFloats := by
  cases foldNot_outcome x with
  | kept h =>
    rw [h]
    exact hx
  | inverted op l r hcompare h =>
    subst hcompare
    rw [h]
    exact hx
  | bool b _ h | null _ h =>
    rw [h]
    exact of_leaf nofun

theorem foldLogic (op : LogicOp) (hl : l.HasFiniteFloats) (hr : r.HasFiniteFloats) :
    (foldLogic op l r).HasFiniteFloats := by
  cases foldLogic_outcome op l r with
  | kept h =>
    rw [h]
    exact of_pair hl hr
  | decided _ h | undecided _ _ h | null _ _ _ h =>
    rw [h]
    exact of_leaf nofun

theorem foldIs (target : Option Bool) (hx : x.HasFiniteFloats) :
    (foldIs x target).HasFiniteFloats := by
  cases foldIs_outcome x target with
  | kept h =>
    rw [h]
    exact hx
  | bool b _ h | null _ h =>
    rw [h]
    exact of_leaf nofun

theorem fold {e : Expr} (h : e.HasFiniteFloats) : e.fold.HasFiniteFloats := by
  induction e with
  | leaf v => exact h
  | sign negative x ih => exact (ih h).toInt.foldSign negative
  | not x ih => exact (ih h).toBool.foldNot
  | is x target ih => exact (ih h).toBool.foldIs target
  | arith op l r ihl ihr =>
    have hl := ihl (h.of_operand List.mem_cons_self)
    have hr := ihr (h.of_operand (List.mem_cons_of_mem l List.mem_cons_self))
    exact hl.toInt.foldArith op hr.toInt
  | logic op l r ihl ihr =>
    have hl := ihl (h.of_operand List.mem_cons_self)
    have hr := ihr (h.of_operand (List.mem_cons_of_mem l List.mem_cons_self))
    exact hl.toBool.foldLogic op hr.toBool
  | compare op l r ihl ihr =>
    have hl := ihl (h.of_operand List.mem_cons_self)
    have hr := ihr (h.of_operand (List.mem_cons_of_mem l List.mem_cons_self))
    exact of_pair hl hr

theorem same_self {e : Expr} (h : e.HasFiniteFloats) : e.same e = true := by
  induction e with
  | leaf v =>
    cases v with
    | float y => exact Decimal.beq_self_of_isFinite h.isFinite
    | _ => simp [same, Leaf.same]
  | sign _ x ih | not x ih | is x _ ih =>
    simp [same, ih h]
  | arith _ l r ihl ihr | logic _ l r ihl ihr | compare _ l r ihl ihr =>
    have hl := ihl (h.of_operand List.mem_cons_self)
    have hr := ihr (h.of_operand (List.mem_cons_of_mem l List.mem_cons_self))
    simp [same, hl, hr]

end HasFiniteFloats

/-- The floats of JSON are finite, and so are those that stand for integers of an unsigned word. -/
theorem Encodes.hasFiniteFloats {v : Json} {e : Expr} (h : Encodes v e) : e.HasFiniteFloats := by
  induction h with
  | null | bool | int | str | column | date | datetime => exact .of_leaf nofun
  | float finite => exact .of_float finite
  | @wide i inRange hi =>
    have hlow : 2 ^ 63 ≤ i := by
      unfold Integer.Fits at hi
      omega
    exact .of_float (Decimal.isFinite_ofInt hlow inRange.2)
  | sign _ _ ih | not _ ih | is _ _ ih => exact ih
  | @connective key c l r x y hkey _ _ ihx ihy =>
    cases c <;> exact .of_pair ihx ihy

/-- Folding makes no infinity and no NaN of finite floats.  So a tree that is read from JSON is
simplified to one that simplifying gives back, also when floats are compared as numbers. -/
theorem fold_keeps_floats_finite :
    (∀ e : Expr, e.HasFiniteFloats → e.fold.HasFiniteFloats) ∧
      ∀ (v : Json) (e : Expr), ofJson v = .ok e →
        e.simplify.1.simplify.1.same e.simplify.1 = true := by
  constructor
  · intro e
    exact HasFiniteFloats.fold
  · intro v e h
    show e.fold.fold.same e.fold = true
    rw [fold_fold]
    exact (encodes_of_ofJson h).hasFiniteFloats.fold.same_self

/-- A product beyond all floats is left as it is.  The integer behind the signed words is read as a
float, from which a half is taken and whose sign is turned. -/
theorem fold_keeps_floats_finite_at_limits :
    (Expr.sign true (.arith .mul (float 1e308) (float 10))).HasFiniteFloats ∧
      (Expr.sign true (.arith .mul (float 1e308) (float 10))).fold.HasFiniteFloats ∧
      ofJson (.object [("neg", .object [("sub", .array [
          .number (.integer 0x8000_0000_0000_0000 (by decide)),
          .number (.real 0.5 (by decide))])])]) =
        .ok (.sign true (.arith .sub (float 9223372036854775808) (float 0.5))) ∧
      (Expr.sign true
        (.arith .sub (float 9223372036854775808) (float 0.5))).simplify.1.simplify.1.same
          (Expr.sign true
            (.arith .sub (float 9223372036854775808) (float 0.5))).simplify.1 = true := by
  have hfinite : (Expr.sign true (.arith .mul (float 1e308) (float 10))).HasFiniteFloats :=
    .of_pair (.of_float (by decide +kernel)) (.of_float (by decide))
  have hread : ofJson (.object [("neg", .object [("sub", .array [
      .number (.integer 0x8000_0000_0000_0000 (by decide)),
      .number (.real 0.5 (by decide))])])]) =
        .ok (.sign true (.arith .sub (float 9223372036854775808) (float 0.5))) := by rfl
  exact ⟨hfinite, fold_keeps_floats_finite.1 _ hfinite, hread,
    fold_keeps_floats_finite.2 _ _ hread⟩

/-- NaN is not the same as itself. -/
example : (float (0.0 / 0.0)).same (float (0.0 / 0.0)) = false := by decide

end Expr
end QueryExpr
