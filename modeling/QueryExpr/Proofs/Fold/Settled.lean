/-
Settled trees, on which folding has nothing left to do.

A tree is settled when at each node the operands stand as the node reads them and the
node's rule leaves it as it is.  Folding gives settled trees and does not change them,
so folding twice is folding once.  Since a tree is folded from its folded operands
alone, a part of it may also be folded beforehand.
-/
import QueryExpr.Proofs.Fold.Rules

namespace QueryExpr
namespace Expr

/-- No rule applies anywhere in the tree. -/
def Settled : Expr → Prop
  | .leaf _ => True
  | .sign negative x => x.Settled ∧ x.toInt = x ∧ foldSign negative x = .sign negative x
  | .arith op l r =>
    (l.Settled ∧ l.toInt = l) ∧ (r.Settled ∧ r.toInt = r) ∧ foldArith op l r = .arith op l r
  | .not x => x.Settled ∧ x.toBool = x ∧ foldNot x = .not x
  | .logic op l r =>
    (l.Settled ∧ l.toBool = l) ∧ (r.Settled ∧ r.toBool = r) ∧ foldLogic op l r = .logic op l r
  | .is x target => x.Settled ∧ x.toBool = x ∧ foldIs x target = .is x target
  | .compare _ l r => l.Settled ∧ r.Settled

theorem fold_eq_self {e : Expr} (h : e.Settled) : e.fold = e := by
  induction e with
  | leaf v => rfl
  | sign negative x ih =>
    obtain ⟨hx, hread, hrule⟩ := h
    rw [fold, ih hx, hread, hrule]
  | arith op l r ihl ihr =>
    obtain ⟨⟨hl, hreadl⟩, ⟨hr, hreadr⟩, hrule⟩ := h
    rw [fold, ihl hl, ihr hr, hreadl, hreadr, hrule]
  | not x ih =>
    obtain ⟨hx, hread, hrule⟩ := h
    rw [fold, ih hx, hread, hrule]
  | logic op l r ihl ihr =>
    obtain ⟨⟨hl, hreadl⟩, ⟨hr, hreadr⟩, hrule⟩ := h
    rw [fold, ihl hl, ihr hr, hreadl, hreadr, hrule]
  | is x target ih =>
    obtain ⟨hx, hread, hrule⟩ := h
    rw [fold, ih hx, hread, hrule]
  | compare op l r ihl ihr =>
    rw [fold, ihl h.1, ihr h.2]

namespace Settled

variable {x l r : Expr}

theorem toInt (h : x.Settled) : x.toInt.Settled := by
  cases x with
  | leaf v => cases v <;> trivial
  | _ => exact h

theorem toBool (h : x.Settled) : x.toBool.Settled := by
  cases x with
  | leaf v => cases v <;> trivial
  | _ => exact h

theorem foldSign (negative : Bool) (hx : x.Settled) (hread : x.toInt = x) :
    (foldSign negative x).Settled := by
  induction x generalizing negative with
  | sign inner y ih =>
    obtain ⟨hy, hready, -⟩ := hx
    exact ih (negative != inner) hy hready
  | _ =>
    cases foldSign_outcome negative _ with
    | kept h =>
      rw [h]
      exact ⟨hx, hread, h⟩
    | int v w _ _ h | float y _ h | null _ h =>
      rw [h]
      trivial
    | again inner y hsign => cases hsign

theorem foldArith (op : ArithOp) (hl : l.Settled) (hr : r.Settled) (hreadl : l.toInt = l)
    (hreadr : r.toInt = r) : (foldArith op l r).Settled := by
  cases foldArith_outcome op l r with
  | kept h =>
    rw [h]
    exact ⟨⟨hl, hreadl⟩, ⟨hr, hreadr⟩, h⟩
  | evaluated a b _ _ _ h =>
    cases h with
    | int v w u _ _ _ h | float y _ _ h =>
      rw [h]
      trivial
  | byZero _ _ h | null _ h | timesZero _ _ h | zeroBy _ _ _ h =>
    rw [h]
    trivial
  | addZero _ _ h =>
    rw [h]
    exact hr
  | lessZero _ _ h | byOne _ _ h =>
    rw [h]
    exact hl
  | zeroLess _ _ h =>
    rw [h]
    exact hr.foldSign true hreadr

theorem foldNot (hx : x.Settled) (hread : x.toBool = x) : (foldNot x).Settled := by
  cases foldNot_outcome x with
  | kept h =>
    rw [h]
    exact ⟨hx, hread, h⟩
  | inverted op l r hcompare h =>
    subst hcompare
    rw [h]
    exact hx
  | bool b _ h | null _ h =>
    rw [h]
    trivial

theorem foldLogic (op : LogicOp) (hl : l.Settled) (hr : r.Settled) (hreadl : l.toBool = l)
    (hreadr : r.toBool = r) : (foldLogic op l r).Settled := by
  cases foldLogic_outcome op l r with
  | kept h =>
    rw [h]
    exact ⟨⟨hl, hreadl⟩, ⟨hr, hreadr⟩, h⟩
  | decided _ h | undecided _ _ h | null _ _ _ h =>
    rw [h]
    trivial

theorem foldIs (target : Option Bool) (hx : x.Settled) (hread : x.toBool = x) :
    (foldIs x target).Settled := by
  cases foldIs_outcome x target with
  | kept h =>
    rw [h]
    exact ⟨hx, hread, h⟩
  | bool b _ h | null _ h =>
    rw [h]
    trivial

end Settled

theorem settled_fold (e : Expr) : e.fold.Settled := by
  induction e with
  | leaf v => trivial
  | sign negative x ih => exact ih.toInt.foldSign negative (toInt_toInt _)
  | arith op l r ihl ihr => exact ihl.toInt.foldArith op ihr.toInt (toInt_toInt _) (toInt_toInt _)
  | not x ih => exact ih.toBool.foldNot (toBool_toBool _)
  | logic op l r ihl ihr =>
    exact ihl.toBool.foldLogic op ihr.toBool (toBool_toBool _) (toBool_toBool _)
  | is x target ih => exact ih.toBool.foldIs target (toBool_toBool _)
  | compare op l r ihl ihr => exact ⟨ihl, ihr⟩

theorem fold_fold (e : Expr) : e.fold.fold = e.fold := fold_eq_self (settled_fold e)

/-- A tree with a hole in it. -/
inductive Context where
  | hole
  | sign (negative : Bool) (inside : Context)
  | arithLeft (op : ArithOp) (inside : Context) (right : Expr)
  | arithRight (op : ArithOp) (left : Expr) (inside : Context)
  | not (inside : Context)
  | logicLeft (op : LogicOp) (inside : Context) (right : Expr)
  | logicRight (op : LogicOp) (left : Expr) (inside : Context)
  | is (inside : Context) (target : Option Bool)
  | compareLeft (op : CompareOp) (inside : Context) (right : Expr)
  | compareRight (op : CompareOp) (left : Expr) (inside : Context)

/-- The tree with `e` in place of the hole. -/
def Context.fill (e : Expr) : Context → Expr
  | hole => e
  | sign negative inside => .sign negative (inside.fill e)
  | arithLeft op inside right => .arith op (inside.fill e) right
  | arithRight op left inside => .arith op left (inside.fill e)
  | not inside => .not (inside.fill e)
  | logicLeft op inside right => .logic op (inside.fill e) right
  | logicRight op left inside => .logic op left (inside.fill e)
  | is inside target => .is (inside.fill e) target
  | compareLeft op inside right => .compare op (inside.fill e) right
  | compareRight op left inside => .compare op left (inside.fill e)

/-- Trees that fold to one tree can stand for each other in every context. -/
theorem fold_fill_congr {s t : Expr} (h : s.fold = t.fold) (c : Context) :
    (c.fill s).fold = (c.fill t).fold := by
  induction c with
  | hole => exact h
  | sign _ _ ih | arithLeft _ _ _ ih | arithRight _ _ _ ih | not _ ih | logicLeft _ _ _ ih
  | logicRight _ _ _ ih | is _ _ ih | compareLeft _ _ _ ih | compareRight _ _ _ ih =>
    simp only [Context.fill, fold, ih]

/-- Folding a second time changes nothing, and neither does folding any part beforehand. -/
theorem fold_stable :
    (∀ e : Expr, e.fold.fold = e.fold) ∧
      ∀ (c : Context) (s : Expr), (c.fill s.fold).fold = (c.fill s).fold :=
  ⟨fold_fold, fun c s => fold_fill_congr (fold_fold s) c⟩

end Expr
end QueryExpr
