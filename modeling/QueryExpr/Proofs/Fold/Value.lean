/-
The integer value of a tree.

Columns have the values of an assignment, truth values count as 0 and 1, and numbers
are exact integers without a bound.  Arithmetic on an unknown value and division by
zero are unknown.  The logical nodes read their operands as true when they are not
zero.  Where nothing in a tree is unknown, folding keeps its value.
-/
import QueryExpr.Proofs.Fold.Parts
import QueryExpr.Proofs.Fold.Truth

namespace QueryExpr

/-- The exact result of an operation, none for a division by zero. -/
def ArithOp.exact (op : ArithOp) (a b : Int) : Option Int :=
  match op with
  | .add => some (a + b)
  | .sub => some (a - b)
  | .mul => some (a * b)
  | .div => if b = 0 then none else some (a.tdiv b)

def CompareOp.holds (op : CompareOp) (a b : Int) : Bool :=
  match op with
  | .eq => a = b
  | .ne => a ≠ b
  | .lt => a < b
  | .le => a ≤ b
  | .gt => a > b
  | .ge => a ≥ b

theorem CompareOp.holds_inverse (op : CompareOp) (a b : Int) :
    op.inverse.holds a b = !op.holds a b := by
  have hnot (p : Prop) [Decidable p] : decide (¬ p) = !decide p := decide_not
  cases op with
  | eq => exact hnot (a = b)
  | ne => simp [inverse, holds]
  | lt => simp only [inverse, holds, ← hnot, Int.not_lt]
  | le => simp only [inverse, holds, ← hnot, Int.not_le]
  | gt => simp only [inverse, holds, ← hnot, Int.not_lt, gt_iff_lt]
  | ge => simp only [inverse, holds, ← hnot, Int.not_le, ge_iff_le]

namespace Truth

def ofNumber (v : Option Int) : Option Bool := v.map fun i => i != 0

def toNumber (a : Option Bool) : Option Int := a.map fun b => if b then 1 else 0

@[simp] theorem ofNumber_toNumber (a : Option Bool) : ofNumber (toNumber a) = a := by
  rcases a with _ | _ | _ <;> rfl

end Truth

def signed (negative : Bool) (i : Int) : Int := if negative then -i else i

theorem signed_signed (m n : Bool) (i : Int) : signed m (signed n i) = signed (m != n) i := by
  cases m <;> cases n <;> simp [signed]

/-- The integer value of a leaf.  Floats, texts and times have none. -/
def Leaf.value (assign : Column → Option Int) : Leaf → Option Int
  | .int v => some v.toInt
  | .bool b => some (if b then 1 else 0)
  | .column c => assign c
  | _ => none

namespace Expr

/-- The integer value of a tree, none where it is unknown. -/
def value (assign : Column → Option Int) : Expr → Option Int
  | .leaf v => v.value assign
  | .sign negative x => (x.value assign).map (signed negative)
  | .arith op l r => do
    let a ← l.value assign
    let b ← r.value assign
    op.exact a b
  | .not x => Truth.toNumber (Truth.negate (Truth.ofNumber (x.value assign)))
  | .logic op l r =>
    Truth.toNumber
      (Truth.connect op (Truth.ofNumber (l.value assign)) (Truth.ofNumber (r.value assign)))
  | .is x target =>
    Truth.toNumber (some (Truth.test (Truth.ofNumber (x.value assign)) target))
  | .compare op l r => do
    let a ← l.value assign
    let b ← r.value assign
    Truth.toNumber (some (op.holds a b))

section Rules

variable {assign : Column → Option Int} {x l r : Expr}

@[simp] theorem value_toInt (x : Expr) : x.toInt.value assign = x.value assign := by
  cases x with
  | leaf v =>
    cases v with
    | bool b => cases b <;> rfl
    | _ => rfl
  | _ => rfl

theorem bne_zero_eq (v : Int64) : (v != 0) = (v.toInt != 0) := by
  have hiff : v = 0 ↔ v.toInt = 0 := by
    rw [← Int64.toInt_inj]
    exact Iff.rfl
  by_cases hv : v = 0
  · rw [hv]
    rfl
  · have hi : v.toInt ≠ 0 := fun h => hv (hiff.mpr h)
    rw [bne_iff_ne.mpr hv, bne_iff_ne.mpr hi]

/-- Read as a truth value, a tree keeps the truth of its value.  Only a float gets a value by
being read. -/
theorem ofNumber_value_toBool (h : ∀ y, x ≠ float y) :
    Truth.ofNumber (x.toBool.value assign) = Truth.ofNumber (x.value assign) := by
  cases x with
  | leaf v =>
    cases v with
    | int v =>
      show Truth.ofNumber (Truth.toNumber (some (v != 0))) = some (v.toInt != 0)
      rw [Truth.ofNumber_toNumber, bne_zero_eq]
    | float y => exact absurd rfl (h y)
    | _ => rfl
  | _ => rfl

theorem ne_float_of_value (h : x.value assign ≠ none) (y : Float) : x ≠ float y := by
  rintro rfl
  exact h rfl

theorem toBool_eq_null_iff : x.toBool = null ↔ x = null := by
  cases x with
  | leaf v => cases v <;> simp [toBool]
  | _ => exact Iff.rfl

theorem toBool_ne_null_of_value (h : x.value assign ≠ none) : x.toBool ≠ null := by
  rw [Ne, toBool_eq_null_iff]
  rintro rfl
  exact h rfl

theorem value_foldSign (negative : Bool) (x : Expr) :
    (foldSign negative x).value assign = (x.value assign).map (signed negative) := by
  induction x generalizing negative with
  | sign inner y ih =>
    show (foldSign (negative != inner) y).value assign = _
    rw [ih, value, Option.map_map]
    congr 1
    funext i
    exact (signed_signed negative inner i).symm
  | _ =>
    cases foldSign_outcome negative _ with
    | kept h =>
      rw [h]
      rfl
    | int v w hx hw h =>
      rw [h, hx]
      exact congrArg some hw
    | float y hx h | null hx h =>
      rw [h, hx]
      rfl
    | again inner y hsign => cases hsign

theorem value_of_isZero {i : Int} (h : x.isZero = true) (hx : x.value assign = some i) :
    i = 0 := by
  unfold isZero at h
  split at h
  · rename_i v
    have hv : v = 0 := eq_of_beq h
    rw [hv] at hx
    exact (Option.some.inj hx).symm
  · cases hx
  · cases h

theorem value_of_isOne {i : Int} (h : x.isOne = true) (hx : x.value assign = some i) :
    i = 1 := by
  unfold isOne at h
  split at h
  · rename_i v
    have hv : v = 1 := eq_of_beq h
    rw [hv] at hx
    exact (Option.some.inj hx).symm
  · cases hx
  · cases h

theorem value_of_number? {a : Number} {i : Int} (h : x.number? = some a)
    (hx : x.value assign = some i) : ∃ v : Int64, a = .int v ∧ v.toInt = i := by
  rcases number?_eq_some h with ⟨v, rfl, rfl⟩ | ⟨y, rfl, rfl⟩
  · exact ⟨v, rfl, Option.some.inj hx⟩
  · cases hx

theorem exact_eq_some {op : ArithOp} {i j k : Int} (h : op.exact i j = some k) :
    k = intResult op i j ∧ ¬ (op = .div ∧ j = 0) := by
  cases op with
  | div =>
    unfold ArithOp.exact at h
    dsimp only at h
    split at h
    · cases h
    · rename_i hj
      exact ⟨(Option.some.inj h).symm, fun hdiv => hj hdiv.2⟩
  | _ => exact ⟨(Option.some.inj h).symm, fun hdiv => nomatch hdiv.1⟩

/-- Arithmetic whose result is known keeps it. -/
theorem value_foldArith {op : ArithOp} {i j k : Int} (hl : l.value assign = some i)
    (hr : r.value assign = some j) (hk : op.exact i j = some k) :
    (foldArith op l r).value assign = some k := by
  obtain ⟨hresult, hdivisor⟩ := exact_eq_some hk
  cases foldArith_outcome op l r with
  | kept h =>
    rw [h, value, hl, hr]
    exact hk
  | evaluated a b ha hb _ h =>
    obtain ⟨v, rfl, hv⟩ := value_of_number? ha hl
    obtain ⟨w, rfl, hw⟩ := value_of_number? hb hr
    cases h with
    | int v' w' u hv' hw' hu h =>
      cases hv'
      cases hw'
      rw [h, hresult, ← hv, ← hw, ← hu]
      rfl
    | float y _ hab _ => rcases hab with ⟨z, hz⟩ | ⟨z, hz⟩ <;> cases hz
  | byZero hop hzero h => exact absurd ⟨hop, value_of_isZero hzero hr⟩ hdivisor
  | null hx h =>
    rcases hx with rfl | rfl
    · cases hl
    · cases hr
  | addZero hop hzero h =>
    rw [h, hr, hresult, hop, value_of_isZero hzero hl]
    exact congrArg some (Int.zero_add j).symm
  | lessZero hop hzero h =>
    rw [h, hl, hresult, value_of_isZero hzero hr]
    rcases hop with rfl | rfl
    · exact congrArg some (Int.add_zero i).symm
    · exact congrArg some (Int.sub_zero i).symm
  | zeroLess hop hzero h =>
    rw [h, value_foldSign, hr, hresult, hop, value_of_isZero hzero hl]
    exact congrArg some (Int.zero_sub j).symm
  | timesZero hop hx h =>
    rw [h, hresult, hop]
    rcases hx with hzero | hzero
    · rw [value_of_isZero hzero hl]
      exact congrArg some (Int.zero_mul j).symm
    · rw [value_of_isZero hzero hr]
      exact congrArg some (Int.mul_zero i).symm
  | zeroBy hop hzero _ h =>
    rw [h, hresult, hop, value_of_isZero hzero hl]
    exact congrArg some (Int.zero_tdiv j).symm
  | byOne hop hone h =>
    rw [h, hl, hresult, hop, value_of_isOne hone hr]
    exact congrArg some (Int.tdiv_one i).symm

@[simp] theorem ofNumber_value_bool (b : Bool) :
    Truth.ofNumber ((bool b).value assign) = some b := by
  cases b <;> rfl

theorem value_foldNot (x : Expr) : (foldNot x).value assign = (Expr.not x).value assign := by
  cases foldNot_outcome x with
  | kept h => rw [h]
  | inverted op l r hx h =>
    rw [h, hx]
    simp only [value]
    cases l.value assign with
    | none => rfl
    | some i =>
      cases r.value assign with
      | none => rfl
      | some j =>
        show Truth.toNumber (some (op.inverse.holds i j)) =
          Truth.toNumber (Truth.negate (Truth.ofNumber (Truth.toNumber (some (op.holds i j)))))
        rw [CompareOp.holds_inverse, Truth.ofNumber_toNumber]
        rfl
  | bool b hx h =>
    rw [h, hx]
    cases b <;> rfl
  | null hx h =>
    rw [h, hx]
    rfl

/-- A connective keeps its value unless NULL makes it NULL. -/
theorem value_foldLogic_cases (op : LogicOp) (l r : Expr) :
    (l = null ∨ r = null) ∧ foldLogic op l r = null ∨
      (foldLogic op l r).value assign = (Expr.logic op l r).value assign := by
  cases foldLogic_outcome op l r with
  | kept h => exact Or.inr (by rw [h])
  | decided hx h =>
    have hdecided : Truth.connect op (Truth.ofNumber (l.value assign))
        (Truth.ofNumber (r.value assign)) = some op.deciding := by
      apply Truth.connect_eq_deciding_iff.mpr
      rcases hx with rfl | rfl
      · exact Or.inl (ofNumber_value_bool op.deciding)
      · exact Or.inr (ofNumber_value_bool op.deciding)
    right
    rw [h, value, value, hdecided]
    rfl
  | undecided hxl hxr h =>
    right
    rw [h, hxl, hxr, value, value, ofNumber_value_bool, Truth.connect_undecided]
    rfl
  | null hx _ _ h => exact Or.inl ⟨hx, h⟩

theorem value_foldLogic {op : LogicOp} (hl : l ≠ null) (hr : r ≠ null) :
    (foldLogic op l r).value assign = (Expr.logic op l r).value assign :=
  (value_foldLogic_cases op l r).resolve_left fun h => h.1.elim hl hr

theorem value_foldIs (x : Expr) (target : Option Bool) :
    (foldIs x target).value assign = (Expr.is x target).value assign := by
  cases foldIs_outcome x target with
  | kept h => rw [h]
  | bool b hx h =>
    rw [h, hx, value, value, ofNumber_value_bool, Truth.test, Bool.beq_comm]
    rfl
  | null hx h =>
    rw [h, hx]
    cases target <;> rfl

end Rules

theorem value_arith_eq_some {op : ArithOp} {l r : Expr} {assign : Column → Option Int} {k : Int}
    (h : (Expr.arith op l r).value assign = some k) :
    ∃ i j, l.value assign = some i ∧ r.value assign = some j ∧ op.exact i j = some k := by
  obtain ⟨i, hi, h⟩ := Option.bind_eq_some_iff.mp h
  obtain ⟨j, hj, h⟩ := Option.bind_eq_some_iff.mp h
  exact ⟨i, j, hi, hj, h⟩

/-- Every part of the tree has a value. -/
def Known (assign : Column → Option Int) (e : Expr) : Prop :=
  ∀ s ∈ e.subtrees, s.value assign ≠ none

namespace Known

variable {assign : Column → Option Int} {e x : Expr}

theorem value_ne_none (h : e.Known assign) : e.value assign ≠ none := h e (self_mem_subtrees e)

theorem operand (h : e.Known assign) (hx : x ∈ e.operands) : x.Known assign :=
  forall_subtrees_operand h hx

theorem value_fold (h : e.Known assign) : e.fold.value assign = e.value assign := by
  induction e with
  | leaf v => rfl
  | sign negative x ih =>
    have hx := ih (h.operand (by simp [operands]))
    rw [fold, value_foldSign, value_toInt, hx, value]
  | arith op l r ihl ihr =>
    have hl := ihl (h.operand (by simp [operands]))
    have hr := ihr (h.operand (by simp [operands]))
    obtain ⟨k, hk⟩ := Option.ne_none_iff_exists'.mp h.value_ne_none
    obtain ⟨i, j, hi, hj, hexact⟩ := value_arith_eq_some hk
    rw [hk, fold]
    apply value_foldArith _ _ hexact
    · rw [value_toInt, hl, hi]
    · rw [value_toInt, hr, hj]
  | not x ih =>
    have hknown := h.operand (x := x) (by simp [operands])
    have hx := ih hknown
    have hfold : x.fold.value assign ≠ none := hx ▸ hknown.value_ne_none
    rw [fold, value_foldNot, value, value, ofNumber_value_toBool (ne_float_of_value hfold), hx]
  | logic op l r ihl ihr =>
    have hknownl := h.operand (x := l) (by simp [operands])
    have hknownr := h.operand (x := r) (by simp [operands])
    have hl := ihl hknownl
    have hr := ihr hknownr
    have hfoldl : l.fold.value assign ≠ none := hl ▸ hknownl.value_ne_none
    have hfoldr : r.fold.value assign ≠ none := hr ▸ hknownr.value_ne_none
    rw [fold, value_foldLogic (toBool_ne_null_of_value hfoldl) (toBool_ne_null_of_value hfoldr),
      value, value, ofNumber_value_toBool (ne_float_of_value hfoldl),
      ofNumber_value_toBool (ne_float_of_value hfoldr), hl, hr]
  | is x target ih =>
    have hknown := h.operand (x := x) (by simp [operands])
    have hx := ih hknown
    have hfold : x.fold.value assign ≠ none := hx ▸ hknown.value_ne_none
    rw [fold, value_foldIs, value, value, ofNumber_value_toBool (ne_float_of_value hfold), hx]
  | compare op l r ihl ihr =>
    have hl := ihl (h.operand (by simp [operands]))
    have hr := ihr (h.operand (by simp [operands]))
    rw [fold, value, value, hl, hr]

end Known

/-- Where no part of a tree is unknown, the folded tree has the same value.  The values are
exact integers, so no number in the folded tree has wrapped. -/
theorem value_fold_of_known {assign : Column → Option Int} {e : Expr}
    (h : ∀ s ∈ e.subtrees, s.value assign ≠ none) :
    ∃ i, e.value assign = some i ∧ e.fold.value assign = some i := by
  have hknown : e.Known assign := h
  obtain ⟨i, hi⟩ := Option.ne_none_iff_exists'.mp hknown.value_ne_none
  exact ⟨i, hi, hknown.value_fold.trans hi⟩

/-- The smallest integer under two signs, an inverted comparison and a neutral divisor that is
a truth value. -/
theorem value_fold_smallest :
    let e : Expr := .logic .and
      (.not (.compare .lt (column ⟨["a"]⟩)
        (.arith .sub (int 0) (.sign true (int Int64.minValue)))))
      (.arith .div (.arith .add (column ⟨["b"]⟩) (int 0)) (bool true))
    let assign : Column → Option Int := fun c => if c = ⟨["a"]⟩ then some 5 else some (-3)
    (∀ s ∈ e.subtrees, s.value assign ≠ none) ∧
      e.fold = .logic .and (.compare .ge (column ⟨["a"]⟩) (int Int64.minValue))
        (column ⟨["b"]⟩) ∧
      ∃ i, e.value assign = some i ∧ e.fold.value assign = some i := by
  intro e assign
  have hknown : ∀ s ∈ e.subtrees, s.value assign ≠ none := by decide
  exact ⟨hknown, by decide, value_fold_of_known hknown⟩

end Expr
end QueryExpr
