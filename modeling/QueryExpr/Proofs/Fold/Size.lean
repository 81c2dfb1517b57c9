/-
What folding leaves of a tree.

A rule keeps its node, gives a literal or gives an operand back, perhaps with a sign in place of
its node.  None of these has a leaf that the operands do not have, takes two of them in another
order, or is larger than the node.  So the names, texts and times of a folded tree are some of
those of the tree, in their order, and it has neither more nodes nor more levels.
-/
import QueryExpr.Proofs.Fold.Parts
import QueryExpr.Proofs.Fold.Rules

namespace QueryExpr

/-- The leaf is a name, a text or a time, none of which folding makes or changes. -/
def Leaf.isInert : Leaf → Bool
  | .column _ | .str _ | .date _ | .datetime _ => true
  | .int _ | .float _ | .bool _ | .null => false

namespace Expr

/-- The names, texts and times from left to right. -/
def inertLeaves (e : Expr) : List Leaf := e.leaves.filter Leaf.isInert

/-- The tree `x` has inert leaves of `e` only, in their order, and is no larger than `e`. -/
structure NoLarger (x e : Expr) : Prop where
  inertLeaves_sublist : x.inertLeaves.Sublist e.inertLeaves
  nodes_le : x.subtrees.length ≤ e.subtrees.length
  depth_le : x.depth ≤ e.depth

namespace NoLarger

variable {x y z e l r : Expr}

theorem refl (x : Expr) : x.NoLarger x :=
  ⟨List.Sublist.refl _, Nat.le_refl _, Nat.le_refl _⟩

theorem trans (h : x.NoLarger y) (h' : y.NoLarger z) : x.NoLarger z where
  inertLeaves_sublist := h.inertLeaves_sublist.trans h'.inertLeaves_sublist
  nodes_le := Nat.le_trans h.nodes_le h'.nodes_le
  depth_le := Nat.le_trans h.depth_le h'.depth_le

/-- A literal has no inert leaf and is as small as a tree can be. -/
theorem literal {v : Leaf} (hv : v.isInert = false) (e : Expr) : (Expr.leaf v).NoLarger e := by
  have hnone : (Expr.leaf v).inertLeaves = [] := by simp [inertLeaves, leaves, hv]
  refine ⟨?_, List.length_pos_of_mem (self_mem_subtrees e), Nat.zero_le _⟩
  rw [hnone]
  exact List.nil_sublist _

theorem operand (h : x ∈ e.operands) : x.NoLarger e := by
  cases e with
  | leaf v => cases h
  | sign _ y | not y | is y _ =>
    obtain rfl := List.mem_singleton.mp h
    exact ⟨List.Sublist.refl _, Nat.le_succ _, Nat.le_succ _⟩
  | arith _ l r | logic _ l r | compare _ l r =>
    have hparts : x = l ∨ x = r := by simpa [operands] using h
    constructor
    case inertLeaves_sublist =>
      simp only [inertLeaves, leaves, List.filter_append]
      rcases hparts with rfl | rfl
      · exact List.sublist_append_left _ _
      · exact List.sublist_append_right _ _
    case nodes_le =>
      simp only [subtrees, List.length_cons, List.length_append]
      rcases hparts with rfl | rfl <;> omega
    case depth_le =>
      simp only [depth]
      rcases hparts with rfl | rfl <;> omega

/-- A node whose operands become no larger becomes no larger. -/
theorem mapOperands {f : Expr → Expr} (h : ∀ x ∈ e.operands, (f x).NoLarger x) :
    (e.mapOperands f).NoLarger e := by
  cases e with
  | leaf v => exact refl _
  | sign _ x | not x | is x _ =>
    have hx := h x List.mem_cons_self
    exact ⟨hx.inertLeaves_sublist, Nat.succ_le_succ hx.nodes_le, Nat.succ_le_succ hx.depth_le⟩
  | arith _ l r | logic _ l r | compare _ l r =>
    have hl := h l List.mem_cons_self
    have hr := h r (List.mem_cons_of_mem l List.mem_cons_self)
    have hlnodes := hl.nodes_le
    have hrnodes := hr.nodes_le
    have hldepth := hl.depth_le
    have hrdepth := hr.depth_le
    constructor
    case inertLeaves_sublist =>
      simp only [Expr.mapOperands, inertLeaves, leaves, List.filter_append]
      exact hl.inertLeaves_sublist.append hr.inertLeaves_sublist
    case nodes_le =>
      simp only [Expr.mapOperands, subtrees, List.length_cons, List.length_append]
      omega
    case depth_le =>
      simp only [Expr.mapOperands, depth]
      omega

theorem toInt (x : Expr) : x.toInt.NoLarger x := by
  cases x with
  | leaf v =>
    cases v with
    | bool b => exact literal rfl _
    | _ => exact refl _
  | _ => exact refl _

theorem toBool (x : Expr) : x.toBool.NoLarger x := by
  cases x with
  | leaf v =>
    cases v with
    | int _ | float _ => exact literal rfl _
    | _ => exact refl _
  | _ => exact refl _

/-- A sign is as large whichever it is. -/
theorem sign_sign (m n : Bool) (x : Expr) : (Expr.sign m x).NoLarger (.sign n x) :=
  ⟨List.Sublist.refl _, Nat.le_refl _, Nat.le_refl _⟩

theorem sign_arith (negative : Bool) (op : ArithOp) (l r : Expr) :
    (Expr.sign negative r).NoLarger (.arith op l r) := by
  constructor
  case inertLeaves_sublist =>
    simp only [inertLeaves, leaves, List.filter_append]
    exact List.sublist_append_right _ _
  case nodes_le =>
    simp only [subtrees, List.length_cons, List.length_append]
    omega
  case depth_le =>
    simp only [depth]
    omega

theorem foldSign (negative : Bool) (x : Expr) :
    (foldSign negative x).NoLarger (.sign negative x) := by
  induction x generalizing negative with
  | sign inner y ih =>
    have hinner := (ih (negative != inner)).trans (sign_sign _ inner y)
    exact hinner.trans (operand List.mem_cons_self)
  | _ =>
    cases foldSign_outcome negative _ with
    | kept h =>
      rw [h]
      exact refl _
    | int v w _ _ h | float y _ h | null _ h =>
      rw [h]
      exact literal rfl _
    | again inner y hsign => cases hsign

theorem foldArith (op : ArithOp) (l r : Expr) : (foldArith op l r).NoLarger (.arith op l r) := by
  have hl : l.NoLarger (.arith op l r) := operand List.mem_cons_self
  have hr : r.NoLarger (.arith op l r) := operand (List.mem_cons_of_mem l List.mem_cons_self)
  cases foldArith_outcome op l r with
  | kept h =>
    rw [h]
    exact refl _
  | evaluated a b _ _ _ h =>
    cases h with
    | int v w u _ _ _ h | float y _ _ h =>
      rw [h]
      exact literal rfl _
  | byZero _ _ h | null _ h | timesZero _ _ h | zeroBy _ _ _ h =>
    rw [h]
    exact literal rfl _
  | addZero _ _ h =>
    rw [h]
    exact hr
  | lessZero _ _ h | byOne _ _ h =>
    rw [h]
    exact hl
  | zeroLess _ _ h =>
    rw [h]
    exact (foldSign true r).trans (sign_arith true op l r)

theorem foldNot (x : Expr) : (foldNot x).NoLarger (.not x) := by
  cases foldNot_outcome x with
  | kept h =>
    rw [h]
    exact refl _
  | inverted op l r hx h =>
    rw [h, hx]
    exact ⟨List.Sublist.refl _, Nat.le_succ _, Nat.le_succ _⟩
  | bool b _ h | null _ h =>
    rw [h]
    exact literal rfl _

theorem foldLogic (op : LogicOp) (l r : Expr) : (foldLogic op l r).NoLarger (.logic op l r) := by
  cases foldLogic_outcome op l r with
  | kept h =>
    rw [h]
    exact refl _
  | decided _ h | undecided _ _ h | null _ _ _ h =>
    rw [h]
    exact literal rfl _

theorem foldIs (x : Expr) (target : Option Bool) : (foldIs x target).NoLarger (.is x target) := by
  cases foldIs_outcome x target with
  | kept h =>
    rw [h]
    exact refl _
  | bool b _ h | null _ h =>
    rw [h]
    exact literal rfl _

/-- The operands are folded and read, and then the rule takes the node. -/
theorem fold (e : Expr) : e.fold.NoLarger e := by
  induction e using induction_operands with
  | h e ih =>
    have hint : (e.mapOperands fun x => x.fold.toInt).NoLarger e :=
      mapOperands fun x hx => (toInt x.fold).trans (ih x hx)
    have hbool : (e.mapOperands fun x => x.fold.toBool).NoLarger e :=
      mapOperands fun x hx => (toBool x.fold).trans (ih x hx)
    have hfold : (e.mapOperands fun x => x.fold).NoLarger e := mapOperands ih
    cases e with
    | leaf v => exact refl _
    | sign negative x => exact (foldSign negative x.fold.toInt).trans hint
    | arith op l r => exact (foldArith op l.fold.toInt r.fold.toInt).trans hint
    | not x => exact (foldNot x.fold.toBool).trans hbool
    | logic op l r => exact (foldLogic op l.fold.toBool r.fold.toBool).trans hbool
    | is x target => exact (foldIs x.fold.toBool target).trans hbool
    | compare op l r => exact hfold

end NoLarger

/-- Folding takes its names, texts and times from the tree, in their order and none of them twice,
and makes neither more nodes nor more levels. -/
theorem fold_inertLeaves_and_size (e : Expr) :
    e.fold.inertLeaves.Sublist e.inertLeaves ∧
      e.fold.subtrees.length ≤ e.subtrees.length ∧ e.fold.depth ≤ e.depth := by
  obtain ⟨hleaves, hnodes, hdepth⟩ := NoLarger.fold e
  exact ⟨hleaves, hnodes, hdepth⟩

end Expr
end QueryExpr
