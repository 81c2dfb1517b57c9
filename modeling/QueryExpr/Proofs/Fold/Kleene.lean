/-
The truth value of a logical tree.

Logical trees are made of truth values, NULL and columns by negations, connectives and
tests, and their values are those of Kleene's logic.  Folding keeps the value but for
one rule: a connective with an operand that folds to NULL becomes NULL, though the
other operand, undecided as a tree, may decide it under an assignment.  So the folded
tree has the value of the tree with these connectives blanked out.
-/
import QueryExpr.Proofs.Fold.Parts
import QueryExpr.Proofs.Fold.Truth

namespace QueryExpr
namespace Expr

/-- The tree consists of truth values, NULL, columns, negations, connectives and tests. -/
def Logical : Expr → Prop
  | bool _ | null | column _ => True
  | .not x | .is x _ => x.Logical
  | .logic _ l r => l.Logical ∧ r.Logical
  | _ => False

/-- The truth value of a logical tree, none where it is unknown. -/
def truth (assign : Column → Option Bool) : Expr → Option Bool
  | bool b => some b
  | column c => assign c
  | .not x => Truth.negate (x.truth assign)
  | .logic op l r => Truth.connect op (l.truth assign) (r.truth assign)
  | .is x target => some (Truth.test (x.truth assign) target)
  | _ => none

/-- A connective of the folded operands `l` and `r` becomes NULL: one of them is NULL, and
none decides the connective. -/
def Voids (op : LogicOp) (l r : Expr) : Prop :=
  (l = null ∨ r = null) ∧ l ≠ bool op.deciding ∧ r ≠ bool op.deciding

instance (op : LogicOp) (l r : Expr) : Decidable (Voids op l r) :=
  inferInstanceAs (Decidable (_ ∧ _ ∧ _))

/-- The tree with NULL in place of each connective that its folded operands make NULL. -/
def blanked : Expr → Expr
  | .not x => .not x.blanked
  | .logic op l r => if Voids op l.fold r.fold then null else .logic op l.blanked r.blanked
  | .is x target => .is x.blanked target
  | e => e

/-- The tree is a connective that its folded operands make NULL, though an operand decides
it under the assignment. -/
def Masked (assign : Column → Option Bool) : Expr → Prop
  | .logic op l r =>
    Voids op l.fold r.fold ∧
      (l.truth assign = some op.deciding ∨ r.truth assign = some op.deciding)
  | _ => False

namespace Logical

variable {e x l r : Expr}

theorem toBool_eq (h : x.Logical) : x.toBool = x := by
  cases x with
  | leaf v =>
    cases v with
    | int v | float y => exact absurd h id
    | _ => rfl
  | _ => rfl

theorem foldNot (h : x.Logical) : (foldNot x).Logical := by
  cases foldNot_outcome x with
  | kept hkept =>
    rw [hkept]
    exact h
  | inverted op l r hx _ =>
    subst hx
    exact absurd h id
  | bool _ _ hbool | null _ hbool =>
    rw [hbool]
    trivial

theorem foldLogic {op : LogicOp} (hl : l.Logical) (hr : r.Logical) :
    (foldLogic op l r).Logical := by
  cases foldLogic_outcome op l r with
  | kept h =>
    rw [h]
    exact ⟨hl, hr⟩
  | decided _ h | undecided _ _ h | null _ _ _ h =>
    rw [h]
    trivial

theorem foldIs {target : Option Bool} (h : x.Logical) : (foldIs x target).Logical := by
  cases foldIs_outcome x target with
  | kept hkept =>
    rw [hkept]
    exact h
  | bool _ _ hbool | null _ hbool =>
    rw [hbool]
    trivial

theorem fold (h : e.Logical) : e.fold.Logical := by
  induction e with
  | leaf v => exact h
  | not x ih =>
    have hx := ih h
    rw [Expr.fold, hx.toBool_eq]
    exact hx.foldNot
  | logic op l r ihl ihr =>
    have hl := ihl h.1
    have hr := ihr h.2
    rw [Expr.fold, hl.toBool_eq, hr.toBool_eq]
    exact hl.foldLogic hr
  | is x target ih =>
    have hx := ih h
    rw [Expr.fold, hx.toBool_eq]
    exact hx.foldIs
  | sign | arith | compare => exact absurd h id

theorem of_mem_subtrees {s : Expr} (h : e.Logical) (hs : s ∈ e.subtrees) : s.Logical := by
  induction e with
  | leaf v =>
    rw [List.mem_singleton.mp hs]
    exact h
  | not x ih | is x target ih =>
    rcases List.mem_cons.mp hs with rfl | hs
    · exact h
    · exact ih h hs
  | logic op l r ihl ihr =>
    rcases List.mem_cons.mp hs with rfl | hs
    · exact h
    · rcases List.mem_append.mp hs with hs | hs
      · exact ihl h.1 hs
      · exact ihr h.2 hs
  | sign | arith | compare => exact absurd h id

/-- The operands of a connective are read as they are folded. -/
theorem fold_logic {op : LogicOp} (h : (Expr.logic op l r).Logical) :
    (Expr.logic op l r).fold = Expr.foldLogic op l.fold r.fold := by
  rw [Expr.fold, h.1.fold.toBool_eq, h.2.fold.toBool_eq]

end Logical

section Rules

variable {op : LogicOp} {assign : Column → Option Bool} {x l r : Expr}

theorem truth_foldNot (h : x.Logical) :
    (foldNot x).truth assign = (Expr.not x).truth assign := by
  cases foldNot_outcome x with
  | kept hkept => rw [hkept]
  | inverted op l r hx _ =>
    subst hx
    exact absurd h id
  | bool b hx hbool =>
    rw [hbool, hx]
    rfl
  | null hx hnull =>
    rw [hnull, hx]
    rfl

theorem truth_foldIs (x : Expr) (target : Option Bool) :
    (foldIs x target).truth assign = (Expr.is x target).truth assign := by
  cases foldIs_outcome x target with
  | kept h => rw [h]
  | bool b hx h =>
    rw [h, hx]
    exact congrArg some (Bool.beq_comm)
  | null hx h =>
    rw [h, hx]
    cases target <;> rfl

/-- Except for the propagation of NULL, the rule for connectives is Kleene's. -/
theorem truth_foldLogic (h : ¬ Voids op l r) :
    (foldLogic op l r).truth assign = (Expr.logic op l r).truth assign := by
  cases foldLogic_outcome op l r with
  | kept hkept => rw [hkept]
  | decided hx hbool =>
    have hdecided : Truth.connect op (l.truth assign) (r.truth assign) = some op.deciding := by
      apply Truth.connect_eq_deciding_iff.mpr
      rcases hx with rfl | rfl
      · exact Or.inl rfl
      · exact Or.inr rfl
    rw [hbool, truth, truth, hdecided]
  | undecided hl hr hbool =>
    rw [hbool, hl, hr]
    exact (Truth.connect_undecided op).symm
  | null hx hl hr _ => exact absurd ⟨hx, hl, hr⟩ h

theorem foldLogic_of_voids (h : Voids op l r) : foldLogic op l r = null := by
  obtain ⟨hx, hnel, hner⟩ := h
  have hdecided : ¬ (l = bool op.deciding ∨ r = bool op.deciding) := not_or.mpr ⟨hnel, hner⟩
  have hboth : ¬ (l = bool (!op.deciding) ∧ r = bool (!op.deciding)) := by
    rintro ⟨rfl, rfl⟩
    rcases hx with hx | hx <;> cases hx
  have hnull : (l.isNull || r.isNull) = true := by
    rw [Bool.or_eq_true, isNull_iff, isNull_iff]
    exact hx
  exact (if_neg hdecided).trans ((if_neg hboth).trans (if_pos hnull))

end Rules

variable {assign : Column → Option Bool} {e : Expr}

/-- Folding keeps the value of the blanked tree. -/
theorem truth_fold_eq_blanked (h : e.Logical) :
    e.fold.truth assign = e.blanked.truth assign := by
  induction e with
  | leaf v => rfl
  | not x ih =>
    have hx : x.fold.Logical := Logical.fold h
    rw [fold, hx.toBool_eq, truth_foldNot hx, blanked, truth, truth, ih h]
  | logic op l r ihl ihr =>
    rw [h.fold_logic, blanked]
    by_cases hvoids : Voids op l.fold r.fold
    · rw [foldLogic_of_voids hvoids, if_pos hvoids]
    · rw [truth_foldLogic hvoids, if_neg hvoids, truth, truth, ihl h.1, ihr h.2]
  | is x target ih =>
    have hx : x.fold.Logical := Logical.fold h
    rw [fold, hx.toBool_eq, truth_foldIs, blanked, truth, truth, ih h]
  | sign | arith | compare => exact absurd h id

theorem truth_eq_none_of_fold (h : e.Logical) (hkept : e.blanked.truth assign = e.truth assign)
    (hnull : e.fold = null) : e.truth assign = none := by
  rw [← hkept, ← truth_fold_eq_blanked h, hnull]
  rfl

/-- Blanking a connective does not matter where no operand decides it. -/
theorem truth_blanked (h : e.Logical) (hmasked : ∀ s ∈ e.subtrees, ¬ s.Masked assign) :
    e.blanked.truth assign = e.truth assign := by
  induction e with
  | leaf v => rfl
  | not x ih =>
    have hx := ih h (forall_subtrees_operand hmasked (by simp [operands]))
    rw [blanked, truth, truth, hx]
  | logic op l r ihl ihr =>
    have hl := ihl h.1 (forall_subtrees_operand hmasked (by simp [operands]))
    have hr := ihr h.2 (forall_subtrees_operand hmasked (by simp [operands]))
    rw [blanked]
    by_cases hvoids : Voids op l.fold r.fold
    · obtain ⟨hnel, hner⟩ := not_or.mp fun hx => hmasked _ (self_mem_subtrees _) ⟨hvoids, hx⟩
      -- the operand that folds to NULL is unknown, since its own parts are kept
      have hunknown : l.truth assign = none ∨ r.truth assign = none :=
        hvoids.1.imp (truth_eq_none_of_fold h.1 hl) (truth_eq_none_of_fold h.2 hr)
      rw [if_pos hvoids]
      exact (Truth.connect_eq_none hunknown hnel hner).symm
    · rw [if_neg hvoids, truth, truth, hl, hr]
  | is x target ih =>
    have hx := ih h (forall_subtrees_operand hmasked (by simp [operands]))
    rw [blanked, truth, truth, hx]
  | sign | arith | compare => exact absurd h id

/-- A masked connective folds to NULL, though its value is known. -/
theorem Masked.lost (h : e.Logical) (hmasked : e.Masked assign) :
    e.fold = null ∧ e.truth assign ≠ none := by
  cases e with
  | logic op l r =>
    obtain ⟨hvoids, hdecided⟩ := hmasked
    have htruth := Truth.connect_eq_deciding_iff.mpr hdecided
    refine ⟨?_, ?_⟩
    · rw [h.fold_logic, foldLogic_of_voids hvoids]
    · rw [truth, htruth]
      exact Option.some_ne_none _
  | leaf | sign | arith | not | is | compare => exact absurd hmasked id

/-- The folded tree has the value of the blanked tree.  That is the value of the tree if no
connective in it is masked, and a masked connective loses its value. -/
theorem truth_fold_up_to_null (assign : Column → Option Bool) (h : e.Logical) :
    e.fold.truth assign = e.blanked.truth assign ∧
      ((∀ s ∈ e.subtrees, ¬ s.Masked assign) → e.fold.truth assign = e.truth assign) ∧
      ∀ s ∈ e.subtrees, s.Masked assign → s.fold = null ∧ s.truth assign ≠ none := by
  refine ⟨truth_fold_eq_blanked h, fun hmasked => ?_, fun s hs hmasked => ?_⟩
  · rw [truth_fold_eq_blanked h, truth_blanked h hmasked]
  · exact hmasked.lost (h.of_mem_subtrees hs)

/-- A column that is true is kept beside NULL, and one that is false is not. -/
theorem truth_fold_null_and_column :
    let e : Expr := .logic .and null (column ⟨["a"]⟩)
    e.fold.truth (fun _ => some true) = e.truth (fun _ => some true) ∧
      e.fold = null ∧ e.truth (fun _ => some false) ≠ none := by
  intro e
  have hlogical : e.Logical := ⟨trivial, trivial⟩
  obtain ⟨-, hkept, -⟩ := truth_fold_up_to_null (fun _ => some true) hlogical
  obtain ⟨-, -, hlost⟩ := truth_fold_up_to_null (fun _ => some false) hlogical
  refine ⟨hkept ?_, hlost e (self_mem_subtrees e) ?_⟩
  · simp [e, subtrees, Masked, LogicOp.deciding, truth]
  · show Voids _ _ _ ∧ _
    decide

theorem truth_fold_not_kept :
    ¬ ∀ (e : Expr) (assign : Column → Option Bool), e.Logical →
      e.fold.truth assign = e.truth assign := by
  intro h
  have hfold := h (.logic .and null (column ⟨["a"]⟩)) (fun _ => some false) ⟨trivial, trivial⟩
  exact absurd hfold (by decide)

end Expr
end QueryExpr
