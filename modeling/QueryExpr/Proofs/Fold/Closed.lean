/-
Closed trees, which folding evaluates.

A closed tree has no columns, and its leaves are integers, truth values and NULL.  Its
value is that of a literal, a number where the root of the tree gives numbers and a truth
value elsewhere.  On literals every rule computes, so folding leaves nothing but the
literal, provided that each number on the way fits a word.
-/
import QueryExpr.Proofs.Fold.Value

namespace QueryExpr
namespace Expr

/-- The leaves are integers, truth values and NULL, and nothing is compared. -/
def Closed : Expr → Prop
  | int _ | bool _ | null => True
  | .sign _ x | .not x | .is x _ => x.Closed
  | .arith _ l r | .logic _ l r => l.Closed ∧ r.Closed
  | _ => False

/-- The root of the tree gives numbers: it is an integer, a sign or arithmetic. -/
def isNumeric : Expr → Bool
  | int _ | .sign _ _ | .arith _ _ _ => true
  | _ => false

/-- No number in the tree is out of the range of words. -/
def InRange (assign : Column → Option Int) (e : Expr) : Prop :=
  ∀ s ∈ e.subtrees, s.isNumeric = true → ∀ i ∈ s.value assign, Integer.Fits i

def numberLiteral : Option Int → Expr
  | none => null
  | some i => int (Int64.ofInt i)

def truthLiteral : Option Bool → Expr
  | none => null
  | some b => bool b

section Rules

theorem toInt_numberLiteral (v : Option Int) : (numberLiteral v).toInt = numberLiteral v := by
  cases v <;> rfl

theorem toBool_truthLiteral (a : Option Bool) : (truthLiteral a).toBool = truthLiteral a := by
  cases a <;> rfl

theorem toInt_truthLiteral (a : Option Bool) :
    (truthLiteral a).toInt = numberLiteral (Truth.toNumber a) := by
  rcases a with _ | _ | _ <;> rfl

theorem toBool_numberLiteral {v : Option Int} (h : ∀ i, v = some i → Integer.Fits i) :
    (numberLiteral v).toBool = truthLiteral (Truth.ofNumber v) := by
  cases v with
  | none => rfl
  | some i =>
    show bool (Int64.ofInt i != 0) = bool (i != 0)
    rw [bne_zero_eq, Integer.toInt_ofInt (h i rfl)]

theorem foldSign_numberLiteral {negative : Bool} {v : Option Int}
    (h : ∀ i, v = some i → Integer.Fits i)
    (hsigned : ∀ i, v.map (signed negative) = some i → Integer.Fits i) :
    foldSign negative (numberLiteral v) = numberLiteral (v.map (signed negative)) := by
  cases v with
  | none => rfl
  | some i =>
    cases negative with
    | false => rfl
    | true =>
      have hfit : Integer.fit? (-(Int64.ofInt i).toInt) = some (Int64.ofInt (-i)) := by
        rw [Integer.toInt_ofInt (h i rfl)]
        exact Integer.fit?_of_fits (hsigned (-i) rfl)
      show foldSign true (int (Int64.ofInt i)) = _
      rw [foldSign_true_int, hfit]
      rfl

theorem isZero_numberLiteral {i : Int} (h : Integer.Fits i) :
    (numberLiteral (some i)).isZero = true ↔ i = 0 := by
  show (Int64.ofInt i == 0) = true ↔ _
  rw [beq_iff_eq, ← Int64.toInt_inj, Integer.toInt_ofInt h]
  exact Iff.rfl

theorem foldArith_numberLiteral_none {op : ArithOp} {v w : Option Int} (h : v = none ∨ w = none) :
    foldArith op (numberLiteral v) (numberLiteral w) = null := by
  rcases h with rfl | rfl
  · rfl
  · cases v <;> rfl

theorem foldArith_numberLiteral_some {op : ArithOp} {i j : Int} (hi : Integer.Fits i)
    (hj : Integer.Fits j) (h : ∀ k, op.exact i j = some k → Integer.Fits k) :
    foldArith op (numberLiteral (some i)) (numberLiteral (some j)) =
      numberLiteral (op.exact i j) := by
  have hrule : foldArith op (numberLiteral (some i)) (numberLiteral (some j)) =
      if op = .div ∧ (numberLiteral (some j)).isZero = true then null
      else ((Integer.fit? (intResult op (Int64.ofInt i).toInt (Int64.ofInt j).toInt)).map
        int).getD (.arith op (numberLiteral (some i)) (numberLiteral (some j))) := rfl
  rw [hrule, Integer.toInt_ofInt hi, Integer.toInt_ofInt hj]
  simp only [isZero_numberLiteral hj]
  by_cases hzero : op = .div ∧ j = 0
  · rw [if_pos hzero, hzero.1, hzero.2]
    rfl
  · have hexact : op.exact i j = some (intResult op i j) := by
      cases op with
      | div => exact if_neg fun h => hzero ⟨rfl, h⟩
      | _ => rfl
    rw [if_neg hzero, hexact, Integer.fit?_of_fits (h _ hexact)]
    rfl

/-- Arithmetic on literals gives the exact result if that fits. -/
theorem foldArith_numberLiteral {op : ArithOp} {v w : Option Int}
    (hv : ∀ i, v = some i → Integer.Fits i) (hw : ∀ j, w = some j → Integer.Fits j)
    (h : ∀ k, (do op.exact (← v) (← w)) = some k → Integer.Fits k) :
    foldArith op (numberLiteral v) (numberLiteral w) =
      numberLiteral (do op.exact (← v) (← w)) := by
  cases v with
  | none => exact foldArith_numberLiteral_none (Or.inl rfl)
  | some i =>
    cases w with
    | none => exact foldArith_numberLiteral_none (Or.inr rfl)
    | some j => exact foldArith_numberLiteral_some (hv i rfl) (hw j rfl) h

theorem foldNot_truthLiteral (a : Option Bool) :
    foldNot (truthLiteral a) = truthLiteral (Truth.negate a) := by
  cases a <;> rfl

theorem foldLogic_truthLiteral (op : LogicOp) (a b : Option Bool) :
    foldLogic op (truthLiteral a) (truthLiteral b) = truthLiteral (Truth.connect op a b) := by
  cases op <;> rcases a with _ | _ | _ <;> rcases b with _ | _ | _ <;> rfl

theorem foldIs_truthLiteral (a target : Option Bool) :
    foldIs (truthLiteral a) target = truthLiteral (some (Truth.test a target)) := by
  rcases a with _ | b
  · cases target <;> rfl
  · exact congrArg bool Bool.beq_comm

end Rules

/-- The literal that stands for the value of the tree. -/
def literal (assign : Column → Option Int) (e : Expr) : Expr :=
  if e.isNumeric then numberLiteral (e.value assign)
  else truthLiteral (Truth.ofNumber (e.value assign))

namespace Closed

variable {assign : Column → Option Int} {e x : Expr}

/-- A closed tree that does not give numbers has the value of a truth value. -/
theorem value_eq_toNumber (assign : Column → Option Int) (h : e.Closed)
    (hroot : e.isNumeric = false) :
    ∃ a, e.value assign = Truth.toNumber a := by
  cases e with
  | leaf v =>
    cases v with
    | bool b => exact ⟨some b, rfl⟩
    | null => exact ⟨none, rfl⟩
    | int v => cases hroot
    | _ => exact absurd h id
  | not | logic | is => exact ⟨_, rfl⟩
  | sign | arith => cases hroot
  | compare => exact absurd h id

theorem fits (h : e.Closed) (hrange : e.InRange assign) {i : Int}
    (hi : e.value assign = some i) : Integer.Fits i := by
  cases hroot : e.isNumeric with
  | true => exact hrange e (self_mem_subtrees e) hroot i hi
  | false =>
    obtain ⟨a, ha⟩ := h.value_eq_toNumber assign hroot
    rw [hi] at ha
    rcases a with _ | _ | _
    · cases ha
    · cases ha
      decide
    · cases ha
      decide

/-- The literal of a closed tree, read as a number, is the value. -/
theorem toInt_literal (h : e.Closed) :
    (e.literal assign).toInt = numberLiteral (e.value assign) := by
  unfold literal
  cases hroot : e.isNumeric with
  | true => exact toInt_numberLiteral _
  | false =>
    obtain ⟨a, ha⟩ := h.value_eq_toNumber assign hroot
    rw [ha, Truth.ofNumber_toNumber]
    exact toInt_truthLiteral a

theorem toBool_literal (h : e.Closed) (hrange : e.InRange assign) :
    (e.literal assign).toBool = truthLiteral (Truth.ofNumber (e.value assign)) := by
  unfold literal
  cases hroot : e.isNumeric with
  | true => exact toBool_numberLiteral fun i hi => h.fits hrange hi
  | false => exact toBool_truthLiteral _

/-- Each rule computes on the literals of its operands, so a closed tree folds to its literal. -/
theorem fold_eq_literal (h : e.Closed) (hrange : e.InRange assign) :
    e.fold = e.literal assign := by
  induction e with
  | leaf v =>
    cases v with
    | int v => exact congrArg int (Int64.ofInt_toInt v).symm
    | bool b => cases b <;> rfl
    | null => rfl
    | _ => exact absurd h id
  | sign negative x ih =>
    have hrangex : x.InRange assign := forall_subtrees_operand hrange (by simp [operands])
    have hclosed : x.Closed := h
    rw [fold, ih h hrangex, hclosed.toInt_literal, foldSign_numberLiteral]
    · rfl
    · exact fun i hi => hclosed.fits hrangex hi
    · exact fun i hi => Closed.fits (e := .sign negative x) h hrange hi
  | arith op l r ihl ihr =>
    have hrangel : l.InRange assign := forall_subtrees_operand hrange (by simp [operands])
    have hranger : r.InRange assign := forall_subtrees_operand hrange (by simp [operands])
    rw [fold, ihl h.1 hrangel, ihr h.2 hranger, h.1.toInt_literal, h.2.toInt_literal,
      foldArith_numberLiteral]
    · rfl
    · exact fun i hi => h.1.fits hrangel hi
    · exact fun j hj => h.2.fits hranger hj
    · exact fun k hk => Closed.fits (e := .arith op l r) h hrange hk
  | not x ih =>
    have hrangex : x.InRange assign := forall_subtrees_operand hrange (by simp [operands])
    have hclosed : x.Closed := h
    rw [fold, ih h hrangex, hclosed.toBool_literal hrangex, foldNot_truthLiteral]
    exact congrArg truthLiteral (Truth.ofNumber_toNumber _).symm
  | logic op l r ihl ihr =>
    have hrangel : l.InRange assign := forall_subtrees_operand hrange (by simp [operands])
    have hranger : r.InRange assign := forall_subtrees_operand hrange (by simp [operands])
    rw [fold, ihl h.1 hrangel, ihr h.2 hranger, h.1.toBool_literal hrangel,
      h.2.toBool_literal hranger, foldLogic_truthLiteral]
    exact congrArg truthLiteral (Truth.ofNumber_toNumber _).symm
  | is x target ih =>
    have hrangex : x.InRange assign := forall_subtrees_operand hrange (by simp [operands])
    have hclosed : x.Closed := h
    rw [fold, ih h hrangex, hclosed.toBool_literal hrangex, foldIs_truthLiteral]
    exact congrArg truthLiteral (Truth.ofNumber_toNumber _).symm
  | compare op l r => exact absurd h id

end Closed

/-- A closed tree whose numbers fit folds to one literal: to NULL exactly when its value is
unknown, and otherwise to the value, as an integer where the root gives numbers and as a truth
value elsewhere. -/
theorem fold_closed {assign : Column → Option Int} {e : Expr} (h : e.Closed)
    (hrange : e.InRange assign) :
    (e.fold = null ↔ e.value assign = none) ∧
      ∀ i, e.value assign = some i →
        if e.isNumeric then ∃ w, e.fold = int w ∧ w.toInt = i
        else ∃ b, e.fold = bool b ∧ (if b then 1 else 0) = i := by
  have hfold := h.fold_eq_literal hrange
  rw [hfold, literal]
  cases hroot : e.isNumeric with
  | true =>
    constructor
    · cases e.value assign with
      | none => exact ⟨fun _ => rfl, fun _ => rfl⟩
      | some i => exact ⟨nofun, nofun⟩
    · intro i hi
      rw [hi]
      exact ⟨Int64.ofInt i, rfl, Integer.toInt_ofInt (h.fits hrange hi)⟩
  | false =>
    obtain ⟨a, ha⟩ := h.value_eq_toNumber assign hroot
    rw [ha, Truth.ofNumber_toNumber]
    cases a with
    | none => exact ⟨⟨fun _ => rfl, fun _ => rfl⟩, nofun⟩
    | some b => exact ⟨⟨nofun, nofun⟩, fun i hi => ⟨b, rfl, Option.some.inj hi⟩⟩

/-- A conjunction with NULL that is false, a product with NULL that is NULL, and the largest
integer as the difference of a truth value and a number. -/
theorem fold_closed_mixed :
    let e : Expr := .arith .sub
      (.logic .and (.arith .div (int 7) (int 0)) (.logic .or (bool false) (int 0)))
      (.sign true (.arith .add (.is (.arith .mul (int 0) null) none)
        (int 0x7FFF_FFFF_FFFF_FFFE)))
    let assign : Column → Option Int := fun _ => none
    e.Closed ∧ e.InRange assign ∧ (e.fold = null ↔ e.value assign = none) ∧
      ∃ w, e.fold = int w ∧ w.toInt = 0x7FFF_FFFF_FFFF_FFFF := by
  intro e assign
  have hclosed : e.Closed :=
    ⟨⟨⟨trivial, trivial⟩, trivial, trivial⟩, ⟨trivial, trivial⟩, trivial⟩
  have hrange : e.InRange assign := by
    unfold InRange
    decide
  obtain ⟨hnull, hvalue⟩ := fold_closed hclosed hrange
  exact ⟨hclosed, hrange, hnull, hvalue 0x7FFF_FFFF_FFFF_FFFF (by decide)⟩

end Expr
end QueryExpr
