/-
The parts of a tree.
-/
import QueryExpr.Expr.Basic

namespace QueryExpr
namespace Expr

def operands : Expr → List Expr
  | .leaf _ => []
  | .sign _ x | .not x | .is x _ => [x]
  | .arith _ l r | .logic _ l r | .compare _ l r => [l, r]

/-- The tree and all trees in it. -/
def subtrees : Expr → List Expr
  | .leaf v => [.leaf v]
  | .sign negative x => .sign negative x :: x.subtrees
  | .arith op l r => .arith op l r :: (l.subtrees ++ r.subtrees)
  | .not x => .not x :: x.subtrees
  | .logic op l r => .logic op l r :: (l.subtrees ++ r.subtrees)
  | .is x target => .is x target :: x.subtrees
  | .compare op l r => .compare op l r :: (l.subtrees ++ r.subtrees)

/-- The leaves from left to right. -/
def leaves : Expr → List Leaf
  | .leaf v => [v]
  | .sign _ x | .not x | .is x _ => x.leaves
  | .arith _ l r | .logic _ l r | .compare _ l r => l.leaves ++ r.leaves

/-- The number of nodes above the deepest leaf. -/
def depth : Expr → Nat
  | .leaf _ => 0
  | .sign _ x | .not x | .is x _ => x.depth + 1
  | .arith _ l r | .logic _ l r | .compare _ l r => max l.depth r.depth + 1

/-- The node with `f` applied to its operands. -/
def mapOperands (f : Expr → Expr) : Expr → Expr
  | .leaf v => .leaf v
  | .sign negative x => .sign negative (f x)
  | .arith op l r => .arith op (f l) (f r)
  | .not x => .not (f x)
  | .logic op l r => .logic op (f l) (f r)
  | .is x target => .is (f x) target
  | .compare op l r => .compare op (f l) (f r)

/-- The tree with `f` applied to its leaves. -/
def mapLeaves (f : Leaf → Leaf) : Expr → Expr
  | .leaf v => .leaf (f v)
  | .sign negative x => .sign negative (x.mapLeaves f)
  | .arith op l r => .arith op (l.mapLeaves f) (r.mapLeaves f)
  | .not x => .not (x.mapLeaves f)
  | .logic op l r => .logic op (l.mapLeaves f) (r.mapLeaves f)
  | .is x target => .is (x.mapLeaves f) target
  | .compare op l r => .compare op (l.mapLeaves f) (r.mapLeaves f)

variable {e x s : Expr}

/-- Induction over all operands at once. -/
theorem induction_operands {P : Expr → Prop} (h : ∀ e, (∀ x ∈ e.operands, P x) → P e)
    (e : Expr) : P e := by
  induction e with
  | leaf v => exact h _ nofun
  | sign _ x ih | not x ih | is x _ ih => exact h _ (List.forall_mem_singleton.mpr ih)
  | arith _ l r ihl ihr | logic _ l r ihl ihr | compare _ l r ihl ihr =>
    exact h _ (List.forall_mem_cons.mpr ⟨ihl, List.forall_mem_singleton.mpr ihr⟩)

theorem mapLeaves_eq_self_iff {f : Leaf → Leaf} :
    e.mapLeaves f = e ↔ ∀ v ∈ e.leaves, f v = v := by
  induction e with
  | leaf v => simp [mapLeaves, leaves]
  | sign _ x ih | not x ih | is x _ ih => simp [mapLeaves, leaves, ih]
  | arith _ l r ihl ihr | logic _ l r ihl ihr | compare _ l r ihl ihr =>
    simp only [mapLeaves, leaves, arith.injEq, logic.injEq, compare.injEq, true_and, ihl, ihr,
      List.forall_mem_append]

theorem self_mem_subtrees (e : Expr) : e ∈ e.subtrees := by
  cases e <;> exact List.mem_cons_self

theorem mem_subtrees_iff : s ∈ e.subtrees ↔ s = e ∨ ∃ x ∈ e.operands, s ∈ x.subtrees := by
  cases e <;> simp [subtrees, operands]

theorem mem_subtrees_of_operand (hx : x ∈ e.operands) (hs : s ∈ x.subtrees) :
    s ∈ e.subtrees := mem_subtrees_iff.mpr (Or.inr ⟨x, hx, hs⟩)

theorem forall_subtrees_operand {P : Expr → Prop} (h : ∀ s ∈ e.subtrees, P s)
    (hx : x ∈ e.operands) : ∀ s ∈ x.subtrees, P s :=
  fun s hs => h s (mem_subtrees_of_operand hx hs)

end Expr
end QueryExpr
