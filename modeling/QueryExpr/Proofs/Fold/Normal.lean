/-
The form of folded trees.

A normal node has no operand that its rule would act on: no literal that a sign or a
connective takes in, no number that arithmetic drops, no two numbers whose result can be
written down.  A tree of normal nodes is one on which folding has nothing left to do, so
folding gives such trees, and they are the trees that it does not change.  `NormalArith` says the
same of arithmetic with the literals and the operations on them in full.
-/
import QueryExpr.Proofs.Fold.Parts
import QueryExpr.Proofs.Fold.Settled

namespace QueryExpr
namespace Expr

/-- What a tree is at its root. -/
inductive Kind where
  | int
  | float
  | str
  | date
  | datetime
  | bool
  | null
  | column
  | sign
  | arith
  | not
  | logic
  | is
  | compare
  deriving DecidableEq

def kind : Expr → Kind
  | .leaf (.int _) => .int
  | .leaf (.float _) => .float
  | .leaf (.str _) => .str
  | .leaf (.date _) => .date
  | .leaf (.datetime _) => .datetime
  | .leaf (.bool _) => .bool
  | .leaf .null => .null
  | .leaf (.column _) => .column
  | .sign _ _ => .sign
  | .arith _ _ _ => .arith
  | .not _ => .not
  | .logic _ _ _ => .logic
  | .is _ _ => .is
  | .compare _ _ _ => .compare

/-- The result is an integer that does not fit or a float that is not finite. -/
def OutOfRange (op : ArithOp) : Number → Number → Prop
  | .int v, .int w => ¬ Integer.Fits (intResult op v.toInt w.toInt)
  | a, b => (floatResult op a.toFloat b.toFloat).isFinite = false

/-- The node can stand in a folded tree. -/
def NormalNode : Expr → Prop
  | .leaf _ => True
  | .sign negative x =>
    x.kind ∉ [.float, .bool, .null, .sign] ∧
      ∀ v, x = int v → negative = true ∧ v = Int64.minValue
  | .arith op l r =>
    l.kind ∉ [.bool, .null] ∧ r.kind ∉ [.bool, .null] ∧
      (∀ a b, l.number? = some a → r.number? = some b →
        ¬ (op = .div ∧ r.isZero = true) ∧ OutOfRange op a b) ∧
      (l.number? = none ∨ r.number? = none →
        l.isZero = false ∧ r.isZero = false ∧ ¬ (op = .div ∧ r.isOne = true))
  | .not x => x.kind ∉ [.compare, .bool, .null, .int, .float]
  | .logic op l r =>
    l.kind ∉ [.null, .int, .float] ∧ r.kind ∉ [.null, .int, .float] ∧
      (op = .or → l ≠ bool true ∧ r ≠ bool true) ∧
      (op = .and → l ≠ bool false ∧ r ≠ bool false) ∧
      ¬ (l.kind = .bool ∧ r.kind = .bool)
  | .is x _ => x.kind ∉ [.bool, .null, .int, .float]
  | .compare _ _ _ => True

/-- Nothing that arithmetic knows a value of. -/
def Unknown (x : Expr) : Prop := x.kind ∉ [.int, .float, .bool, .null]

/-- The integer is no signed word of 64 bits. -/
def BeyondWord (i : Int) : Prop := i < -0x8000_0000_0000_0000 ∨ 0x8000_0000_0000_0000 ≤ i

def Overflows (op : ArithOp) (a b : Int) : Prop :=
  match op with
  | .add => BeyondWord (a + b)
  | .sub => BeyondWord (a - b)
  | .mul => BeyondWord (a * b)
  | .div => BeyondWord (a.tdiv b)

def NotFinite (op : ArithOp) (x y : Float) : Prop :=
  match op with
  | .add => (x + y).isFinite = false
  | .sub => (x - y).isFinite = false
  | .mul => (x * y).isFinite = false
  | .div => (x / y).isFinite = false

/-- The operands that arithmetic can have in a folded tree. -/
inductive NormalArith (op : ArithOp) : Expr → Expr → Prop where
  | ints {v w : Int64} (hdiv : op = .div → w ≠ 0) (h : Overflows op v.toInt w.toInt) :
      NormalArith op (int v) (int w)
  | floats {x y : Float} (hdiv : op = .div → (y == 0.0) = false) (h : NotFinite op x y) :
      NormalArith op (float x) (float y)
  | intFloat {v : Int64} {y : Float} (hdiv : op = .div → (y == 0.0) = false)
      (h : NotFinite op (Float.ofInt v.toInt) y) : NormalArith op (int v) (float y)
  | floatInt {x : Float} {w : Int64} (hdiv : op = .div → w ≠ 0)
      (h : NotFinite op x (Float.ofInt w.toInt)) : NormalArith op (float x) (int w)
  | intLeft {v : Int64} {r : Expr} (hv : v ≠ 0) (hr : r.Unknown) : NormalArith op (int v) r
  | floatLeft {x : Float} {r : Expr} (hx : (x == 0.0) = false) (hr : r.Unknown) :
      NormalArith op (float x) r
  | intRight {l : Expr} {w : Int64} (hl : l.Unknown) (hw : w ≠ 0) (hdiv : op = .div → w ≠ 1) :
      NormalArith op l (int w)
  | floatRight {l : Expr} {y : Float} (hl : l.Unknown) (hy : (y == 0.0) = false)
      (hdiv : op = .div → (y == 1.0) = false) : NormalArith op l (float y)
  | unknown {l r : Expr} (hl : l.Unknown) (hr : r.Unknown) : NormalArith op l r

/-- All nodes are normal, and NULL is the whole tree or is compared with something. -/
structure IsNormal (e : Expr) : Prop where
  nodes : ∀ n ∈ e.subtrees, n.NormalNode
  nulls : ∀ n ∈ e.subtrees, null ∈ n.operands → ∃ op l r, n = .compare op l r

section Nodes

variable {x l r : Expr} {negative : Bool}

theorem toInt_eq_self_iff : x.toInt = x ↔ x.kind ≠ .bool := by
  cases x with
  | leaf v => cases v <;> simp [toInt, kind]
  | _ => simp [toInt, kind]

theorem toBool_eq_self_iff : x.toBool = x ↔ x.kind ≠ .int ∧ x.kind ≠ .float := by
  cases x with
  | leaf v => cases v <;> simp [toBool, kind]
  | _ => simp [toBool, kind]

theorem kind_eq_null_iff : x.kind = .null ↔ x = null := by
  cases x with
  | leaf v => cases v <;> simp [kind]
  | _ => simp [kind]

theorem kind_eq_bool_iff : x.kind = .bool ↔ ∃ b, x = bool b := by
  cases x with
  | leaf v => cases v <;> simp [kind]
  | _ => simp [kind]

/-- A sign goes into a literal, or it comes to stand in front of a tree without one. -/
theorem foldSign_form (negative : Bool) (x : Expr) :
    (∃ n y, foldSign negative x = .sign n y ∧ y.kind ≠ .sign) ∨
      (foldSign negative x).kind ∈ [.int, .float, .null] := by
  induction x generalizing negative with
  | sign inner y ih => exact ih (negative != inner)
  | leaf v =>
    cases foldSign_outcome negative (.leaf v) with
    | kept h => exact Or.inl ⟨negative, .leaf v, h, by cases v <;> simp [kind]⟩
    | int _ _ _ _ h | float _ _ h | null _ h => exact Or.inr (by rw [h]; simp [kind])
    | again inner y hsign => cases hsign
  | _ => exact Or.inl ⟨negative, _, rfl, by simp [kind]⟩

/-- The smallest integer alone has no negative. -/
theorem fit?_neg_eq_none_iff {v : Int64} :
    Integer.fit? (-v.toInt) = none ↔ v = Int64.minValue := by
  have hlow := v.le_toInt
  have hhigh := v.toInt_lt
  constructor
  · intro h
    have hnot : ¬ Integer.Fits (-v.toInt) := by
      intro hfits
      rw [Integer.fit?_of_fits hfits] at h
      cases h
    unfold Integer.Fits at hnot
    apply Int64.toInt_inj.mp
    rw [Int64.toInt_minValue]
    omega
  · rintro rfl
    decide

theorem foldSign_eq_sign (h : x.kind ∉ [.int, .float, .null, .sign]) :
    foldSign negative x = .sign negative x := by
  cases x with
  | leaf v =>
    cases v with
    | int | float | null => simp [kind] at h
    | _ => rfl
  | sign inner y => simp [kind] at h
  | _ => rfl

theorem normalNode_sign_iff :
    NormalNode (.sign negative x) ↔
      x.toInt = x ∧ foldSign negative x = .sign negative x := by
  rw [toInt_eq_self_iff]
  cases x with
  | leaf v =>
    cases v with
    | int v =>
      cases negative with
      | false =>
        have hrule : foldSign false (int v) = int v := rfl
        simp [NormalNode, kind, hrule]
      | true =>
        rw [foldSign_true_int]
        cases hfit : Integer.fit? (-v.toInt) with
        | none => simp [NormalNode, kind, fit?_neg_eq_none_iff.mp hfit]
        | some w =>
          have hne : v ≠ Int64.minValue := fun h => by
            rw [fit?_neg_eq_none_iff.mpr h] at hfit
            cases hfit
          simp [NormalNode, kind, hne]
    | float y =>
      have hrule : foldSign negative (float y) = float (if negative then -y else y) := rfl
      simp [NormalNode, kind, hrule]
    | null =>
      have hrule : foldSign negative null = null := rfl
      simp [NormalNode, kind, hrule]
    | bool b => simp [NormalNode, kind]
    | _ => simp [NormalNode, kind, foldSign_eq_sign]
  | sign inner y =>
    have hnot : foldSign negative (.sign inner y) ≠ .sign negative (.sign inner y) := by
      intro h
      rcases foldSign_form negative (.sign inner y) with ⟨n, z, hform, hz⟩ | hform
      · cases hform.symm.trans h
        exact hz rfl
      · rw [h] at hform
        simp [kind] at hform
    simp [NormalNode, kind, hnot]
  | _ => simp [NormalNode, kind, foldSign_eq_sign]

theorem evaluate_eq_none_iff {op : ArithOp} {a b : Number} :
    evaluate op a b = none ↔ OutOfRange op a b := by
  cases a with
  | int v =>
    cases b with
    | int w =>
      show (Integer.fit? _).map int = none ↔ _
      rw [Option.map_eq_none_iff, Integer.fit?]
      simp [OutOfRange]
    | float y => simp [evaluate, OutOfRange]
  | float x => simp [evaluate, OutOfRange]

theorem foldSign_ne_arith {op : ArithOp} : foldSign negative x ≠ .arith op l r := by
  intro h
  rcases foldSign_form negative x with ⟨n, y, hform, -⟩ | hform
  · cases hform.symm.trans h
  · rw [h] at hform
    simp [kind] at hform

/-- A tree is larger than its operands. -/
theorem ne_arith (op : ArithOp) (l r : Expr) : l ≠ .arith op l r ∧ r ≠ .arith op l r := by
  have hsize := arith.sizeOf_spec op l r
  constructor
  · intro h
    rw [← h] at hsize
    omega
  · intro h
    rw [← h] at hsize
    omega

theorem foldIdentity_eq_self_iff {op : ArithOp} :
    foldIdentity op l r = .arith op l r ↔
      l ≠ null ∧ r ≠ null ∧ l.isZero = false ∧ r.isZero = false ∧
        ¬ (op = .div ∧ r.isOne = true) := by
  obtain ⟨hl, hr⟩ := ne_arith op l r
  unfold foldIdentity
  by_cases hnull : (l.isNull || r.isNull) = true
  · rw [if_pos hnull]
    rw [Bool.or_eq_true, isNull_iff, isNull_iff] at hnull
    simp only [reduceCtorEq, false_iff]
    rintro ⟨hl, hr, -⟩
    exact hnull.elim hl hr
  · rw [if_neg hnull]
    rw [Bool.or_eq_true, isNull_iff, isNull_iff, not_or] at hnull
    cases hlzero : l.isZero <;> cases hrzero : r.isZero <;> cases op <;>
      simp [hnull, hl, hr, foldSign_ne_arith]

theorem foldArith_numbers {op : ArithOp} {a b : Number} (hl : l.number? = some a)
    (hr : r.number? = some b) :
    foldArith op l r = .arith op l r ↔ ¬ (op = .div ∧ r.isZero = true) ∧ OutOfRange op a b := by
  rw [← evaluate_eq_none_iff, foldArith, hl, hr]
  dsimp only
  by_cases hzero : op = .div ∧ r.isZero = true
  · simp [hzero]
  · rw [if_neg hzero]
    cases hvalue : evaluate op a b with
    | none => simpa using hzero
    | some e =>
      have hne : e ≠ .arith op l r := by
        cases evaluate_evaluated hvalue with
        | int _ _ _ _ _ _ h | float _ _ _ h => simp [h]
      simp [hne]

theorem foldArith_eq_foldIdentity {op : ArithOp} (h : l.number? = none ∨ r.number? = none) :
    foldArith op l r = foldIdentity op l r := by
  unfold foldArith
  rcases h with h | h
  · rw [h]
  · rw [h]
    cases l.number? <;> rfl

theorem normalNode_numbers_iff {op : ArithOp} {a b : Number} (hl : l.number? = some a)
    (hr : r.number? = some b) :
    NormalNode (.arith op l r) ↔ ¬ (op = .div ∧ r.isZero = true) ∧ OutOfRange op a b := by
  have hkind : ∀ {x : Expr} {a : Number}, x.number? = some a → x.kind ∉ [.bool, .null] := by
    intro x a hx
    rcases number?_eq_some hx with ⟨v, rfl, -⟩ | ⟨y, rfl, -⟩ <;> simp [kind]
  constructor
  · rintro ⟨-, -, hboth, -⟩
    exact hboth a b hl hr
  · intro hout
    refine ⟨hkind hl, hkind hr, fun a' b' hl' hr' => ?_, fun h => ?_⟩
    · cases hl.symm.trans hl'
      cases hr.symm.trans hr'
      exact hout
    · rw [hl, hr] at h
      simp at h

theorem normalNode_unknown_iff {op : ArithOp} (h : l.number? = none ∨ r.number? = none) :
    NormalNode (.arith op l r) ↔
      l.kind ∉ [.bool, .null] ∧ r.kind ∉ [.bool, .null] ∧ l.isZero = false ∧ r.isZero = false ∧
        ¬ (op = .div ∧ r.isOne = true) := by
  constructor
  · rintro ⟨hl, hr, -, hone⟩
    exact ⟨hl, hr, hone h⟩
  · rintro ⟨hl, hr, hone⟩
    refine ⟨hl, hr, fun a b ha hb => ?_, fun _ => hone⟩
    rw [ha, hb] at h
    simp at h

theorem normalNode_arith_iff {op : ArithOp} :
    NormalNode (.arith op l r) ↔
      l.toInt = l ∧ r.toInt = r ∧ foldArith op l r = .arith op l r := by
  by_cases hnumbers : l.number? = none ∨ r.number? = none
  · have hkind : ∀ x : Expr, x.kind ∉ [.bool, .null] ↔ x.kind ≠ .bool ∧ x ≠ null := by
      intro x
      simp [kind_eq_null_iff]
    rw [normalNode_unknown_iff hnumbers, foldArith_eq_foldIdentity hnumbers,
      foldIdentity_eq_self_iff, toInt_eq_self_iff, toInt_eq_self_iff, hkind, hkind]
    constructor
    · rintro ⟨⟨hlbool, hlnull⟩, ⟨hrbool, hrnull⟩, hrest⟩
      exact ⟨hlbool, hrbool, hlnull, hrnull, hrest⟩
    · rintro ⟨hlbool, hrbool, hlnull, hrnull, hrest⟩
      exact ⟨⟨hlbool, hlnull⟩, ⟨hrbool, hrnull⟩, hrest⟩
  · obtain ⟨hl, hr⟩ := not_or.mp hnumbers
    obtain ⟨a, hl⟩ := Option.ne_none_iff_exists'.mp hl
    obtain ⟨b, hr⟩ := Option.ne_none_iff_exists'.mp hr
    have hnumber : ∀ {x : Expr} {a : Number}, x.number? = some a → x.toInt = x := by
      intro x a hx
      rcases number?_eq_some hx with ⟨v, rfl, -⟩ | ⟨y, rfl, -⟩ <;> rfl
    rw [normalNode_numbers_iff hl hr, foldArith_numbers hl hr, and_iff_right (hnumber hl),
      and_iff_right (hnumber hr)]

theorem isZero_int {v : Int64} : (int v).isZero = true ↔ v = 0 := beq_iff_eq

theorem isOne_int {v : Int64} : (int v).isOne = true ↔ v = 1 := beq_iff_eq

/-- What is no number is neither zero nor one. -/
theorem number_cases (x : Expr) :
    (∃ v, x = int v) ∨ (∃ y, x = float y) ∨
      x.number? = none ∧ x.isZero = false ∧ x.isOne = false ∧ x.kind ∉ [.int, .float] := by
  cases x with
  | leaf v =>
    cases v with
    | int v => exact Or.inl ⟨v, rfl⟩
    | float y => exact Or.inr (Or.inl ⟨y, rfl⟩)
    | _ => exact Or.inr (Or.inr ⟨rfl, rfl, rfl, by simp [kind]⟩)
  | _ => exact Or.inr (Or.inr ⟨rfl, rfl, rfl, by simp [kind]⟩)

theorem overflows_iff {op : ArithOp} {a b : Int} :
    Overflows op a b ↔ ¬ Integer.Fits (intResult op a b) := by
  have hword : ∀ i, BeyondWord i ↔ ¬ Integer.Fits i := by
    intro i
    unfold Integer.Fits BeyondWord
    omega
  cases op <;> exact hword _

theorem notFinite_iff {op : ArithOp} {x y : Float} :
    NotFinite op x y ↔ (floatResult op x y).isFinite = false := by
  cases op <;> rfl

theorem unknown_iff :
    x.Unknown ↔ x.kind ∉ [.int, .float] ∧ x.kind ∉ [.bool, .null] := by
  rw [← not_or, ← List.mem_append]
  rfl

theorem Unknown.not_number (h : x.Unknown) :
    x.number? = none ∧ x.isZero = false ∧ x.isOne = false ∧ x.kind ∉ [.bool, .null] := by
  obtain ⟨hnumber, hkind⟩ := unknown_iff.mp h
  rcases number_cases x with ⟨v, rfl⟩ | ⟨y, rfl⟩ | ⟨hnone, hzero, hone, -⟩
  · simp [kind] at hnumber
  · simp [kind] at hnumber
  · exact ⟨hnone, hzero, hone, hkind⟩

theorem NormalArith.normalNode {op : ArithOp} (h : NormalArith op l r) :
    NormalNode (.arith op l r) := by
  cases h with
  | ints hdiv h =>
    refine (normalNode_numbers_iff rfl rfl).mpr ⟨fun ⟨hop, hzero⟩ => ?_, overflows_iff.mp h⟩
    exact hdiv hop (isZero_int.mp hzero)
  | floatInt hdiv h =>
    refine (normalNode_numbers_iff rfl rfl).mpr ⟨fun ⟨hop, hzero⟩ => ?_, notFinite_iff.mp h⟩
    exact hdiv hop (isZero_int.mp hzero)
  | floats hdiv h | intFloat hdiv h =>
    refine (normalNode_numbers_iff rfl rfl).mpr ⟨fun ⟨hop, hzero⟩ => ?_, notFinite_iff.mp h⟩
    exact Bool.eq_false_iff.mp (hdiv hop) hzero
  | intLeft hv hr =>
    obtain ⟨hnone, hzero, hone, hkind⟩ := hr.not_number
    refine (normalNode_unknown_iff (Or.inr hnone)).mpr ⟨by simp [kind], hkind, ?_, hzero, ?_⟩
    · exact Bool.eq_false_iff.mpr fun h => hv (isZero_int.mp h)
    · simp [hone]
  | floatLeft hx hr =>
    obtain ⟨hnone, hzero, hone, hkind⟩ := hr.not_number
    refine (normalNode_unknown_iff (Or.inr hnone)).mpr ⟨by simp [kind], hkind, hx, hzero, ?_⟩
    simp [hone]
  | intRight hl hw hdiv =>
    obtain ⟨hnone, hzero, -, hkind⟩ := hl.not_number
    refine (normalNode_unknown_iff (Or.inl hnone)).mpr ⟨hkind, by simp [kind], hzero, ?_, ?_⟩
    · exact Bool.eq_false_iff.mpr fun h => hw (isZero_int.mp h)
    · exact fun ⟨hop, hone⟩ => hdiv hop (isOne_int.mp hone)
  | floatRight hl hy hdiv =>
    obtain ⟨hnone, hzero, -, hkind⟩ := hl.not_number
    refine (normalNode_unknown_iff (Or.inl hnone)).mpr ⟨hkind, by simp [kind], hzero, hy, ?_⟩
    exact fun ⟨hop, hone⟩ => Bool.eq_false_iff.mp (hdiv hop) hone
  | unknown hl hr =>
    obtain ⟨hnone, hlzero, -, hlkind⟩ := hl.not_number
    obtain ⟨-, hrzero, hrone, hrkind⟩ := hr.not_number
    refine (normalNode_unknown_iff (Or.inl hnone)).mpr ⟨hlkind, hrkind, hlzero, hrzero, ?_⟩
    simp [hrone]

theorem NormalNode.normalArith {op : ArithOp} (h : NormalNode (.arith op l r)) :
    NormalArith op l r := by
  -- with two numbers the result did not fit, with one at most nothing was to be dropped
  rcases number_cases l with ⟨v, rfl⟩ | ⟨x, rfl⟩ | ⟨hlnone, -, -, hl⟩
  · rcases number_cases r with ⟨w, rfl⟩ | ⟨y, rfl⟩ | ⟨hrnone, -, -, hr⟩
    · obtain ⟨hzero, hout⟩ := (normalNode_numbers_iff rfl rfl).mp h
      exact .ints (fun hop hw => hzero ⟨hop, isZero_int.mpr hw⟩) (overflows_iff.mpr hout)
    · obtain ⟨hzero, hout⟩ := (normalNode_numbers_iff rfl rfl).mp h
      exact .intFloat (fun hop => Bool.eq_false_iff.mpr fun hy => hzero ⟨hop, hy⟩)
        (notFinite_iff.mpr hout)
    · obtain ⟨-, hrkind, hv, -⟩ := (normalNode_unknown_iff (Or.inr hrnone)).mp h
      exact .intLeft (beq_eq_false_iff_ne.mp hv) (unknown_iff.mpr ⟨hr, hrkind⟩)
  · rcases number_cases r with ⟨w, rfl⟩ | ⟨y, rfl⟩ | ⟨hrnone, -, -, hr⟩
    · obtain ⟨hzero, hout⟩ := (normalNode_numbers_iff rfl rfl).mp h
      exact .floatInt (fun hop hw => hzero ⟨hop, isZero_int.mpr hw⟩) (notFinite_iff.mpr hout)
    · obtain ⟨hzero, hout⟩ := (normalNode_numbers_iff rfl rfl).mp h
      exact .floats (fun hop => Bool.eq_false_iff.mpr fun hy => hzero ⟨hop, hy⟩)
        (notFinite_iff.mpr hout)
    · obtain ⟨-, hrkind, hx, -⟩ := (normalNode_unknown_iff (Or.inr hrnone)).mp h
      exact .floatLeft hx (unknown_iff.mpr ⟨hr, hrkind⟩)
  · obtain ⟨hlkind, hrkind, -, hrzero, hone⟩ := (normalNode_unknown_iff (Or.inl hlnone)).mp h
    have hl : l.Unknown := unknown_iff.mpr ⟨hl, hlkind⟩
    rcases number_cases r with ⟨w, rfl⟩ | ⟨y, rfl⟩ | ⟨-, -, -, hr⟩
    · exact .intRight hl (beq_eq_false_iff_ne.mp hrzero)
        fun hop hw => hone ⟨hop, isOne_int.mpr hw⟩
    · exact .floatRight hl hrzero fun hop => Bool.eq_false_iff.mpr fun hy => hone ⟨hop, hy⟩
    · exact .unknown hl (unknown_iff.mpr ⟨hr, hrkind⟩)

/-- The normal form of arithmetic with its literals and operations in full. -/
theorem normalNode_arith_iff_normalArith {op : ArithOp} :
    NormalNode (.arith op l r) ↔ NormalArith op l r :=
  ⟨NormalNode.normalArith, NormalArith.normalNode⟩

theorem normalNode_not_iff :
    NormalNode (.not x) ↔ x.toBool = x ∧ foldNot x = .not x := by
  rw [toBool_eq_self_iff]
  cases x with
  | leaf v => cases v <;> simp [NormalNode, kind, foldNot]
  | _ => simp [NormalNode, kind, foldNot]

theorem normalNode_is_iff {target : Option Bool} :
    NormalNode (.is x target) ↔ x.toBool = x ∧ foldIs x target = .is x target := by
  rw [toBool_eq_self_iff]
  cases x with
  | leaf v => cases v <;> simp [NormalNode, kind, foldIs]
  | _ => simp [NormalNode, kind, foldIs]

theorem foldLogic_eq_self_iff {op : LogicOp} :
    foldLogic op l r = .logic op l r ↔
      (l ≠ bool op.deciding ∧ r ≠ bool op.deciding) ∧
        ¬ (l = bool (!op.deciding) ∧ r = bool (!op.deciding)) ∧ l ≠ null ∧ r ≠ null := by
  have hdeciding : (op == .or) = op.deciding := rfl
  unfold foldLogic
  dsimp only
  rw [hdeciding]
  split
  · rename_i h
    simp only [reduceCtorEq, false_iff]
    rintro ⟨⟨hl, hr⟩, -⟩
    exact h.elim hl hr
  · rename_i hone
    split
    · rename_i hboth
      simp [hboth]
    · rename_i hboth
      split
      · rename_i hnull
        rw [Bool.or_eq_true, isNull_iff, isNull_iff] at hnull
        simp only [reduceCtorEq, false_iff]
        rintro ⟨-, -, hl, hr⟩
        exact hnull.elim hl hr
      · rename_i hnull
        rw [Bool.or_eq_true, isNull_iff, isNull_iff] at hnull
        simp only [true_iff]
        exact ⟨not_or.mp hone, hboth, not_or.mp hnull⟩

theorem normalNode_logic_iff {op : LogicOp} :
    NormalNode (.logic op l r) ↔
      l.toBool = l ∧ r.toBool = r ∧ foldLogic op l r = .logic op l r := by
  have hkind : ∀ x : Expr, x.kind ∉ [.null, .int, .float] ↔
      x ≠ null ∧ x.kind ≠ .int ∧ x.kind ≠ .float := by
    intro x
    simp [kind_eq_null_iff]
  have hdeciding : ((op = .or → l ≠ bool true ∧ r ≠ bool true) ∧
      (op = .and → l ≠ bool false ∧ r ≠ bool false)) ↔
        l ≠ bool op.deciding ∧ r ≠ bool op.deciding := by
    cases op with
    | and => simp [show LogicOp.and.deciding = false from rfl]
    | or => simp [show LogicOp.or.deciding = true from rfl]
  -- beside a deciding literal only the other one is left
  have hother : ∀ x : Expr, x ≠ bool op.deciding →
      (x.kind = .bool ↔ x = bool (!op.deciding)) := by
    intro x hx
    rw [kind_eq_bool_iff]
    constructor
    · rintro ⟨b, rfl⟩
      cases b <;> cases hop : op.deciding <;> simp_all
    · intro h
      exact ⟨_, h⟩
  rw [toBool_eq_self_iff, toBool_eq_self_iff, foldLogic_eq_self_iff, NormalNode, hkind, hkind,
    ← and_assoc (a := op = .or → _), hdeciding]
  constructor
  · rintro ⟨⟨hlnull, hl⟩, ⟨hrnull, hr⟩, ⟨hldec, hrdec⟩, hboth⟩
    rw [hother l hldec, hother r hrdec] at hboth
    exact ⟨hl, hr, ⟨hldec, hrdec⟩, hboth, hlnull, hrnull⟩
  · rintro ⟨hl, hr, ⟨hldec, hrdec⟩, hboth, hlnull, hrnull⟩
    rw [← hother l hldec, ← hother r hrdec] at hboth
    exact ⟨⟨hlnull, hl⟩, ⟨hrnull, hr⟩, ⟨hldec, hrdec⟩, hboth⟩

end Nodes

theorem settled_iff_operands {e : Expr} :
    e.Settled ↔ e.NormalNode ∧ ∀ x ∈ e.operands, x.Settled := by
  cases e with
  | leaf v => simp [Settled, NormalNode, operands]
  | sign negative x => simp [Settled, normalNode_sign_iff, operands, and_comm]
  | not x => simp [Settled, normalNode_not_iff, operands, and_comm]
  | is x target => simp [Settled, normalNode_is_iff, operands, and_comm]
  | compare op l r => simp [Settled, NormalNode, operands]
  | arith op l r =>
    simp only [Settled, normalNode_arith_iff, operands, List.forall_mem_cons]
    grind
  | logic op l r =>
    simp only [Settled, normalNode_logic_iff, operands, List.forall_mem_cons]
    grind

theorem Settled.normalNode {e : Expr} (h : e.Settled) : ∀ n ∈ e.subtrees, n.NormalNode := by
  intro n hn
  induction e using induction_operands with
  | h e ih =>
    obtain ⟨hnode, hoperands⟩ := settled_iff_operands.mp h
    rcases mem_subtrees_iff.mp hn with rfl | ⟨x, hx, hn⟩
    · exact hnode
    · exact ih x hx (hoperands x hx) hn

/-- Arithmetic is left in a folded tree only where nothing is to be computed or dropped. -/
theorem normalArith_of_mem_fold {e l r : Expr} {op : ArithOp}
    (h : .arith op l r ∈ e.fold.subtrees) : NormalArith op l r :=
  NormalNode.normalArith ((settled_fold e).normalNode _ h)

theorem settled_of_normalNode {e : Expr} (h : ∀ n ∈ e.subtrees, n.NormalNode) : e.Settled := by
  induction e using induction_operands with
  | h e ih =>
    refine settled_iff_operands.mpr ⟨h e (self_mem_subtrees e), fun x hx => ?_⟩
    exact ih x hx (forall_subtrees_operand h hx)

theorem NormalNode.compare_of_null {n : Expr} (h : n.NormalNode) (hnull : null ∈ n.operands) :
    ∃ op l r, n = .compare op l r := by
  cases n with
  | leaf v => cases hnull
  | sign _ x | not x | is x _ =>
    obtain rfl := List.mem_singleton.mp hnull
    simp [NormalNode, kind] at h
  | arith _ l r | logic _ l r =>
    simp only [operands, List.mem_cons, List.not_mem_nil, or_false] at hnull
    rcases hnull with rfl | rfl <;> simp [NormalNode, kind] at h
  | compare op l r => exact ⟨op, l, r, rfl⟩

/-- Folding gives normal trees, and it changes all others. -/
theorem fold_isNormal (e : Expr) : e.fold.IsNormal ∧ (e.IsNormal ↔ e.fold = e) := by
  have hnormal : ∀ e : Expr, e.fold.IsNormal := by
    intro e
    have hnodes := (settled_fold e).normalNode
    exact ⟨hnodes, fun n hn hnull => (hnodes n hn).compare_of_null hnull⟩
  refine ⟨hnormal e, fun h => fold_eq_self (settled_of_normalNode h.nodes), fun h => ?_⟩
  rw [← h]
  exact hnormal e

end Expr
end QueryExpr
