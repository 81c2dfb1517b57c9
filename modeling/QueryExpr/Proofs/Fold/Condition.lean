/-
The value of a condition.

Conditions are made of comparisons of leaves and of leaves themselves by negations,
connectives and tests, and a column in them may be NULL.  Where a condition has no NULL
literal, no rule gives NULL either, and folding keeps the value under every assignment.
With a NULL literal a connective may lose its value, which negations and connectives pass
on.  A test would turn the loss into a truth value, so the operands of tests are kept free
of NULL.
-/
import QueryExpr.Proofs.Fold.Value

namespace QueryExpr

/-- The leaf is a truth value, an integer, NULL or a column. -/
def Leaf.IsPlain : Leaf → Prop
  | .bool _ | .int _ | .null | .column _ => True
  | _ => False

namespace Expr

/-- The tree consists of plain leaves, comparisons of them, negations, connectives and tests. -/
def Condition : Expr → Prop
  | .leaf v => v.IsPlain
  | .compare _ (.leaf v) (.leaf w) => v.IsPlain ∧ w.IsPlain
  | .not x | .is x _ => x.Condition
  | .logic _ l r => l.Condition ∧ r.Condition
  | _ => False

def NullFree (e : Expr) : Prop := null ∉ e.subtrees

/-- No test in the tree has a NULL literal in its operand. -/
def NullFreeTests (e : Expr) : Prop :=
  ∀ s ∈ e.subtrees, ∀ x target, s = .is x target → x.NullFree

variable {assign : Column → Option Int} {e x l r : Expr}

namespace Condition

theorem ne_float (h : x.Condition) (y : Float) : x ≠ float y := by
  rintro rfl
  exact h

theorem toBool (h : x.Condition) : x.toBool.Condition := by
  cases x with
  | leaf v => cases v <;> first | exact h | trivial
  | _ => exact h

theorem compare_eq {op : CompareOp} (h : (Expr.compare op l r).Condition) :
    ∃ v w, l = .leaf v ∧ r = .leaf w := by
  cases l with
  | leaf v =>
    cases r with
    | leaf w => exact ⟨v, w, rfl, rfl⟩
    | _ => exact absurd h id
  | _ => exact absurd h id

theorem foldNot (h : x.Condition) : (foldNot x).Condition := by
  cases foldNot_outcome x with
  | kept hkept =>
    rw [hkept]
    exact h
  | inverted op l r hx hinverted =>
    subst hx
    obtain ⟨v, w, rfl, rfl⟩ := compare_eq h
    rw [hinverted]
    exact h
  | bool _ _ hbool | null _ hbool =>
    rw [hbool]
    trivial

theorem foldLogic {op : LogicOp} (hl : l.Condition) (hr : r.Condition) :
    (foldLogic op l r).Condition := by
  cases foldLogic_outcome op l r with
  | kept h =>
    rw [h]
    exact ⟨hl, hr⟩
  | decided _ h | undecided _ _ h | null _ _ _ h =>
    rw [h]
    trivial

theorem foldIs {target : Option Bool} (h : x.Condition) : (foldIs x target).Condition := by
  cases foldIs_outcome x target with
  | kept hkept =>
    rw [hkept]
    exact h
  | bool _ _ hbool | null _ hbool =>
    rw [hbool]
    trivial

theorem fold (h : e.Condition) : e.fold.Condition := by
  induction e with
  | leaf v => exact h
  | not x ih => exact (ih h).toBool.foldNot
  | logic op l r ihl ihr => exact (ihl h.1).toBool.foldLogic (ihr h.2).toBool
  | is x target ih => exact (ih h).toBool.foldIs
  | compare op l r ihl ihr =>
    obtain ⟨v, w, rfl, rfl⟩ := compare_eq h
    exact h
  | sign | arith => exact absurd h id

/-- Read as a truth value, a folded condition has the truth of its value. -/
theorem ofNumber_value_toBool_fold (assign : Column → Option Int) (h : e.Condition) :
    Truth.ofNumber (e.fold.toBool.value assign) = Truth.ofNumber (e.fold.value assign) :=
  ofNumber_value_toBool h.fold.ne_float

end Condition

section NullFree

theorem NullFree.operand (h : e.NullFree) (hx : x ∈ e.operands) : x.NullFree :=
  fun hnull => h (mem_subtrees_of_operand hx hnull)

/-- No rule gives NULL where there was none. -/
theorem NullFree.fold_ne_null (h : e.NullFree) (hcondition : e.Condition) : e.fold ≠ null := by
  induction e with
  | leaf v =>
    intro hnull
    exact h (hnull ▸ self_mem_subtrees (Expr.leaf v))
  | not x ih =>
    have hx := ih (h.operand (by simp [operands])) hcondition
    intro hnull
    cases foldNot_outcome x.fold.toBool with
    | null hread _ => exact hx (toBool_eq_null_iff.mp hread)
    | kept hrule | inverted _ _ _ _ hrule | bool _ _ hrule => cases hrule.symm.trans hnull
  | logic op l r ihl ihr =>
    have hl := ihl (h.operand (by simp [operands])) hcondition.1
    have hr := ihr (h.operand (by simp [operands])) hcondition.2
    intro hnull
    cases foldLogic_outcome op l.fold.toBool r.fold.toBool with
    | null hread _ _ _ =>
      rcases hread with hread | hread
      · exact hl (toBool_eq_null_iff.mp hread)
      · exact hr (toBool_eq_null_iff.mp hread)
    | kept hrule | decided _ hrule | undecided _ _ hrule => cases hrule.symm.trans hnull
  | is x target ih =>
    intro hnull
    cases foldIs_outcome x.fold.toBool target with
    | kept hrule | bool _ _ hrule | null _ hrule => cases hrule.symm.trans hnull
  | compare op l r ihl ihr =>
    intro hnull
    cases hnull
  | sign | arith => exact absurd hcondition id

/-- Without NULL literals folding keeps the value, even where columns are NULL. -/
theorem NullFree.value_fold (h : e.NullFree) (hcondition : e.Condition) :
    e.fold.value assign = e.value assign := by
  induction e with
  | leaf v => rfl
  | not x ih =>
    have hread := Condition.ofNumber_value_toBool_fold assign (show x.Condition from hcondition)
    have hx := ih (h.operand (by simp [operands])) hcondition
    rw [fold, value_foldNot, value, value, hread, hx]
  | logic op l r ihl ihr =>
    have hfreel : l.NullFree := h.operand (by simp [operands])
    have hfreer : r.NullFree := h.operand (by simp [operands])
    have hnel := hfreel.fold_ne_null hcondition.1
    have hner := hfreer.fold_ne_null hcondition.2
    have hl := ihl hfreel hcondition.1
    have hr := ihr hfreer hcondition.2
    rw [fold, value_foldLogic (mt toBool_eq_null_iff.mp hnel) (mt toBool_eq_null_iff.mp hner),
      value, value, hcondition.1.ofNumber_value_toBool_fold,
      hcondition.2.ofNumber_value_toBool_fold, hl, hr]
  | is x target ih =>
    have hread := Condition.ofNumber_value_toBool_fold assign (show x.Condition from hcondition)
    have hx := ih (h.operand (by simp [operands])) hcondition
    rw [fold, value_foldIs, value, value, hread, hx]
  | compare op l r =>
    obtain ⟨v, w, rfl, rfl⟩ := hcondition.compare_eq
    rfl
  | sign | arith => exact absurd hcondition id

end NullFree

theorem NullFreeTests.operand (h : e.NullFreeTests) (hx : x ∈ e.operands) : x.NullFreeTests :=
  forall_subtrees_operand h hx

/-- Where only the operands of tests are free of NULL, folding keeps the value or loses it. -/
theorem value_fold_within (h : e.Condition) (htests : e.NullFreeTests) :
    Truth.Within (e.fold.value assign) (e.value assign) := by
  induction e with
  | leaf v => exact .refl _
  | not x ih =>
    have hread := Condition.ofNumber_value_toBool_fold assign (show x.Condition from h)
    have hx := ih h (htests.operand (by simp [operands]))
    rw [fold, value_foldNot, value, value, hread]
    exact ((hx.map _).map _).map _
  | logic op l r ihl ihr =>
    have hl := ihl h.1 (htests.operand (by simp [operands]))
    have hr := ihr h.2 (htests.operand (by simp [operands]))
    have hoperands : Truth.Within
        ((Expr.logic op l.fold.toBool r.fold.toBool).value assign)
        ((Expr.logic op l r).value assign) := by
      rw [value, value, h.1.ofNumber_value_toBool_fold, h.2.ofNumber_value_toBool_fold]
      exact (Truth.connect_within (hl.map _) (hr.map _)).map _
    rw [fold]
    rcases value_foldLogic_cases op l.fold.toBool r.fold.toBool with ⟨-, hnull⟩ | hvalue
    · rw [hnull]
      exact Or.inl rfl
    · rw [hvalue]
      exact hoperands
  | is x target ih =>
    have hread := Condition.ofNumber_value_toBool_fold assign (show x.Condition from h)
    have hfree : x.NullFree := htests _ (self_mem_subtrees _) x target rfl
    rw [fold, value_foldIs, value, value, hread, hfree.value_fold h]
    exact .refl _
  | compare op l r =>
    obtain ⟨v, w, rfl, rfl⟩ := h.compare_eq
    exact .refl _
  | sign | arith => exact absurd h id

/-- Folding a condition gives no value that the condition does not have, and it keeps the value
of a condition that has no NULL literal. -/
theorem value_fold_of_condition {assign : Column → Option Int} {e : Expr} (h : e.Condition)
    (htests : e.NullFreeTests) :
    (e.fold.value assign = none ∨ e.fold.value assign = e.value assign) ∧
      (e.NullFree → e.fold.value assign = e.value assign) :=
  ⟨value_fold_within h htests, fun hfree => hfree.value_fold h⟩

/-- A comparison with a column that is NULL, negated and tested, is decided as it is unfolded,
and beside a NULL literal a false column is lost. -/
theorem value_fold_of_condition_null :
    let tested : Expr := .is (.not (.compare .lt (column ⟨["a"]⟩) (int 5))) (some true)
    let e : Expr := .logic .and (.logic .or null tested) (column ⟨["b"]⟩)
    let assign : Column → Option Int := fun c => if c = ⟨["a"]⟩ then none else some 0
    e.Condition ∧ e.NullFreeTests ∧ tested.NullFree ∧
      tested.fold = .is (.compare .ge (column ⟨["a"]⟩) (int 5)) (some true) ∧
      tested.fold.value assign = tested.value assign ∧
      (e.fold.value assign = none ∨ e.fold.value assign = e.value assign) ∧
      e.fold.value assign ≠ e.value assign := by
  intro tested e assign
  have hfree : tested.NullFree := by simp [tested, NullFree, subtrees]
  have hcondition : tested.Condition := ⟨trivial, trivial⟩
  have htests : tested.NullFreeTests := by
    simp [tested, NullFreeTests, NullFree, subtrees]
  have htestse : e.NullFreeTests := by
    simp [e, tested, NullFreeTests, NullFree, subtrees]
  obtain ⟨-, hkept⟩ := @value_fold_of_condition assign tested hcondition htests
  obtain ⟨hwithin, -⟩ :=
    @value_fold_of_condition assign e ⟨⟨trivial, hcondition⟩, trivial⟩ htestse
  exact ⟨⟨⟨trivial, hcondition⟩, trivial⟩, htestse, hfree, by decide, hkept hfree, hwithin,
    by decide⟩

end Expr
end QueryExpr
