/-
What the folding rules can do.

A rule leaves its node as it is, gives a literal, or gives an operand back, perhaps with
a sign.  Each of these outcomes is listed with the operands that lead to it, so later
proofs split on the outcomes and do not open the rules again.
-/
import QueryExpr.Expr.Fold

namespace QueryExpr

/-- The truth value that decides the connective whatever the other operand is. -/
def LogicOp.deciding (op : LogicOp) : Bool := op == .or

namespace Expr

@[simp] theorem toInt_toInt (x : Expr) : x.toInt.toInt = x.toInt := by
  cases x with
  | leaf v => cases v <;> rfl
  | _ => rfl

@[simp] theorem toBool_toBool (x : Expr) : x.toBool.toBool = x.toBool := by
  cases x with
  | leaf v => cases v <;> rfl
  | _ => rfl

theorem isNull_iff {x : Expr} : x.isNull = true ↔ x = null := decide_eq_true_iff

theorem number?_eq_some {x : Expr} {a : Number} (h : x.number? = some a) :
    (∃ v, x = int v ∧ a = .int v) ∨ ∃ y, x = float y ∧ a = .float y := by
  unfold number? at h
  split at h
  · rename_i v
    exact Or.inl ⟨v, rfl, (Option.some.inj h).symm⟩
  · rename_i y
    exact Or.inr ⟨y, rfl, (Option.some.inj h).symm⟩
  · cases h

/-- What a sign in front of `x` becomes. -/
inductive SignOutcome (negative : Bool) (x e : Expr) : Prop where
  | kept (h : e = .sign negative x)
  | int (v w : Int64) (hx : x = int v) (hw : w.toInt = if negative then -v.toInt else v.toInt)
      (h : e = int w)
  | float (y : Float) (hx : x = float y) (h : e = float (if negative then -y else y))
  | null (hx : x = null) (h : e = null)
  | again (inner : Bool) (y : Expr) (hx : x = .sign inner y)
      (h : e = foldSign (negative != inner) y)

theorem foldSign_true_int (v : Int64) :
    foldSign true (int v) = (Integer.fit? (-v.toInt)).elim (.sign true (int v)) int := by
  generalize h : Integer.fit? (-v.toInt) = w?
  show (if true = true then _ else _) = _
  rw [if_pos rfl, h]
  cases w? <;> rfl

theorem foldSign_outcome (negative : Bool) (x : Expr) :
    SignOutcome negative x (foldSign negative x) := by
  cases x with
  | leaf v =>
    cases v with
    | int v =>
      cases negative with
      | false => exact .int v v rfl rfl rfl
      | true =>
        have hsign := foldSign_true_int v
        cases hfit : Integer.fit? (-v.toInt) with
        | none =>
          rw [hfit] at hsign
          exact .kept hsign
        | some w =>
          rw [hfit] at hsign
          exact .int v w rfl (Integer.toInt_of_fit? hfit) hsign
    | float y => exact .float y rfl rfl
    | null => exact .null rfl rfl
    | _ => exact .kept rfl
  | sign inner y => exact .again inner y rfl rfl
  | _ => exact .kept rfl

/-- The result of an operation on two numbers is exact on integers and finite otherwise. -/
inductive Evaluated (op : ArithOp) (a b : Number) (e : Expr) : Prop where
  | int (v w u : Int64) (ha : a = .int v) (hb : b = .int w)
      (hu : u.toInt = intResult op v.toInt w.toInt) (h : e = int u)
  | float (y : Float) (hfinite : y.isFinite = true)
      (hab : (∃ z, a = .float z) ∨ ∃ z, b = .float z) (h : e = float y)

theorem evaluate_evaluated {op : ArithOp} {a b : Number} {e : Expr}
    (h : evaluate op a b = some e) : Evaluated op a b e := by
  have hfloat : ∀ (x : Float), (if x.isFinite then some (Expr.float x) else none) = some e →
      ((∃ z, a = .float z) ∨ ∃ z, b = .float z) → Evaluated op a b e := by
    intro x hx hab
    by_cases hfinite : x.isFinite = true
    · rw [if_pos hfinite] at hx
      exact .float x hfinite hab (Option.some.inj hx).symm
    · rw [if_neg hfinite] at hx
      cases hx
  cases a with
  | int v =>
    cases b with
    | int w =>
      obtain ⟨u, hu, rfl⟩ := Option.map_eq_some_iff.mp h
      exact .int v w u rfl rfl (Integer.toInt_of_fit? hu) rfl
    | float z => exact hfloat _ h (Or.inr ⟨z, rfl⟩)
  | float z => exact hfloat _ h (Or.inl ⟨z, rfl⟩)

inductive ArithOutcome (op : ArithOp) (l r e : Expr) : Prop where
  | kept (h : e = .arith op l r)
  | evaluated (a b : Number) (hl : l.number? = some a) (hr : r.number? = some b)
      (hop : ¬ (op = .div ∧ r.isZero = true)) (h : Evaluated op a b e)
  | byZero (hop : op = .div) (hr : r.isZero = true) (h : e = null)
  | null (hx : l = null ∨ r = null) (h : e = null)
  | addZero (hop : op = .add) (hl : l.isZero = true) (h : e = r)
  | lessZero (hop : op = .add ∨ op = .sub) (hr : r.isZero = true) (h : e = l)
  | zeroLess (hop : op = .sub) (hl : l.isZero = true) (h : e = foldSign true r)
  | timesZero (hop : op = .mul) (hx : l.isZero = true ∨ r.isZero = true) (h : e = int 0)
  | zeroBy (hop : op = .div) (hl : l.isZero = true) (hr : r.isZero = false) (h : e = int 0)
  | byOne (hop : op = .div) (hr : r.isOne = true) (h : e = l)

theorem foldIdentity_outcome (op : ArithOp) (l r : Expr) :
    ArithOutcome op l r (foldIdentity op l r) := by
  unfold foldIdentity
  split
  · rename_i hnull
    rw [Bool.or_eq_true, isNull_iff, isNull_iff] at hnull
    exact .null hnull rfl
  · cases op with
    | add =>
      dsimp only
      split
      · rename_i hl
        exact .addZero rfl hl rfl
      · split
        · rename_i hr
          exact .lessZero (Or.inl rfl) hr rfl
        · exact .kept rfl
    | sub =>
      dsimp only
      split
      · rename_i hl
        exact .zeroLess rfl hl rfl
      · split
        · rename_i hr
          exact .lessZero (Or.inr rfl) hr rfl
        · exact .kept rfl
    | mul =>
      dsimp only
      split
      · rename_i hx
        exact .timesZero rfl (Bool.or_eq_true _ _ ▸ hx) rfl
      · exact .kept rfl
    | div =>
      dsimp only
      split
      · rename_i hr
        exact .byZero rfl hr rfl
      · rename_i hr
        split
        · rename_i hl
          exact .zeroBy rfl hl (Bool.eq_false_iff.mpr hr) rfl
        · split
          · rename_i hone
            exact .byOne rfl hone rfl
          · exact .kept rfl

theorem foldArith_outcome (op : ArithOp) (l r : Expr) :
    ArithOutcome op l r (foldArith op l r) := by
  unfold foldArith
  split
  · rename_i a b hl hr
    split
    · rename_i hzero
      exact .byZero hzero.1 hzero.2 rfl
    · rename_i hop
      cases hvalue : evaluate op a b with
      | none => exact .kept rfl
      | some e => exact .evaluated a b hl hr hop (evaluate_evaluated hvalue)
  · exact foldIdentity_outcome op l r

inductive NotOutcome (x e : Expr) : Prop where
  | kept (h : e = .not x)
  | inverted (op : CompareOp) (l r : Expr) (hx : x = .compare op l r)
      (h : e = .compare op.inverse l r)
  | bool (b : Bool) (hx : x = bool b) (h : e = bool (!b))
  | null (hx : x = null) (h : e = null)

theorem foldNot_outcome (x : Expr) : NotOutcome x (foldNot x) := by
  cases x with
  | leaf v =>
    cases v with
    | bool b => exact .bool b rfl rfl
    | null => exact .null rfl rfl
    | _ => exact .kept rfl
  | compare op l r => exact .inverted op l r rfl rfl
  | _ => exact .kept rfl

inductive LogicOutcome (op : LogicOp) (l r e : Expr) : Prop where
  | kept (h : e = .logic op l r)
  | decided (hx : l = bool op.deciding ∨ r = bool op.deciding) (h : e = bool op.deciding)
  | undecided (hl : l = bool (!op.deciding)) (hr : r = bool (!op.deciding))
      (h : e = bool (!op.deciding))
  | null (hx : l = null ∨ r = null) (hl : l ≠ bool op.deciding) (hr : r ≠ bool op.deciding)
      (h : e = null)

theorem foldLogic_outcome (op : LogicOp) (l r : Expr) :
    LogicOutcome op l r (foldLogic op l r) := by
  unfold foldLogic
  dsimp only
  split
  · rename_i hx
    exact .decided hx rfl
  · rename_i hx
    split
    · rename_i hboth
      exact .undecided hboth.1 hboth.2 rfl
    · split
      · rename_i hnull
        rw [Bool.or_eq_true, isNull_iff, isNull_iff] at hnull
        exact .null hnull (fun hl => hx (Or.inl hl)) (fun hr => hx (Or.inr hr)) rfl
      · exact .kept rfl

inductive IsOutcome (x : Expr) (target : Option Bool) (e : Expr) : Prop where
  | kept (h : e = .is x target)
  | bool (b : Bool) (hx : x = bool b) (h : e = bool (target == some b))
  | null (hx : x = null) (h : e = bool target.isNone)

theorem foldIs_outcome (x : Expr) (target : Option Bool) :
    IsOutcome x target (foldIs x target) := by
  cases x with
  | leaf v =>
    cases v with
    | bool b => exact .bool b rfl rfl
    | null => exact .null rfl rfl
    | _ => exact .kept rfl
  | _ => exact .kept rfl

end Expr
end QueryExpr
