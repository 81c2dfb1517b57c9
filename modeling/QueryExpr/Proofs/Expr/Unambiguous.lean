/-
The displayed form tells trees apart.

Every tree begins with an opening that names its kind of node, and no opening is the beginning of
another one.  Behind the opening each part ends where it says: a leaf at the closing parenthesis
that its value cannot hold, an operator at a space, and an operand where the tree that it writes
ends.  So a text that begins with a tree begins with no other, by induction on the tree.
-/
import Mathlib.Data.List.Nodup
import QueryExpr.Expr.Display
import QueryExpr.Expr.Tagged
import QueryExpr.Proofs.Expr.Dotted
import QueryExpr.Proofs.Fold.Parts
import QueryExpr.Proofs.Text.Quoted

namespace QueryExpr

/-- The kinds of nodes, by what they begin with. -/
inductive Form where
  | int
  | float
  | str
  | date
  | datetime
  | bool
  | null
  | column
  | sign (negative : Bool)
  | not
  /-- Two operands, or an operand and a target. -/
  | infixed
  deriving DecidableEq

namespace Form

def all : List Form :=
  [.int, .float, .str, .date, .datetime, .bool, .null, .column, .sign true, .sign false, .not,
    .infixed]

def opening : Form → List Char
  | .int => "Int(".toList
  | .float => "Float(".toList
  | .str => "Str(".toList
  | .date => "Date(".toList
  | .datetime => "Datetime(".toList
  | .bool => "Bool(".toList
  | .null => "Null".toList
  | .column => "Column(".toList
  | .sign true => "-CastToInt(".toList
  | .sign false => "CastToInt(".toList
  | .not => "not ".toList
  | .infixed => "(".toList

theorem mem_all (f : Form) : f ∈ all := by
  cases f with
  | sign negative => cases negative <;> decide
  | _ => decide

theorem opening_isPrefix {f g : Form} (h : f.opening <+: g.opening) : f = g := by
  have hall : ∀ f ∈ all, ∀ g ∈ all, f.opening <+: g.opening → f = g := by decide
  exact hall f (mem_all f) g (mem_all g) h

/-- A text that begins with an opening begins with no other. -/
theorem eq_of_opening_isPrefix {f g : Form} {text : List Char} (hf : f.opening <+: text)
    (hg : g.opening <+: text) : f = g := by
  rcases List.prefix_or_prefix_of_prefix hf hg with hfg | hgf
  · exact opening_isPrefix hfg
  · exact (opening_isPrefix hgf).symm

end Form

section Tagged

variable {kind : String} {v w r s : List Char}

theorem tagged_append_cancel (h : tagged kind v ++ r = tagged kind w ++ s) :
    v ++ ')' :: r = w ++ ')' :: s := by
  rw [tagged, tagged, List.append_assoc, List.append_assoc] at h
  have hvalue : v ++ [')'] ++ r = w ++ [')'] ++ s :=
    (List.cons.inj (List.append_cancel_left h)).2
  rwa [← List.append_cons, ← List.append_cons] at hvalue

theorem tagged_append_inj (hv : ')' ∉ v) (hw : ')' ∉ w)
    (h : tagged kind v ++ r = tagged kind w ++ s) : v = w ∧ r = s :=
  Text.append_stop_inj hv hw (tagged_append_cancel h)

end Tagged

namespace Leaf

def form : Leaf → Form
  | .int _ => .int
  | .float _ => .float
  | .str _ => .str
  | .date _ => .date
  | .datetime _ => .datetime
  | .bool _ => .bool
  | .null => .null
  | .column _ => .column

/-- An integer, a truth value, NULL, a text or a column that is named by words. -/
def IsLegible : Leaf → Prop
  | .int _ | .bool _ | .null | .str _ => True
  | .column c => c.parts ≠ [] ∧ ∀ part ∈ c.parts, Text.isWord part.toList = true
  | .float _ | .date _ | .datetime _ => False

variable {a b : Leaf} {r s : List Char}

theorem opening_isPrefix_write (a : Leaf) : a.form.opening <+: a.write := by
  cases a with
  | null => exact List.prefix_rfl
  | _ => exact ⟨_, rfl⟩

section Column

variable {c : Column}

theorem IsLegible.isDotted (h : (column c).IsLegible) : c.IsDotted :=
  ⟨h.1, fun part hpart => Text.not_mem_of_isWord (h.2 part hpart) (by decide)⟩

theorem IsLegible.paren_not_mem (h : (column c).IsLegible) : ')' ∉ c.write :=
  Column.not_mem_write (by decide) fun part hpart =>
    Text.not_mem_of_isWord (h.2 part hpart) (by decide)

end Column

theorem write_append_inj (ha : a.IsLegible) (hb : b.IsLegible) (hform : a.form = b.form)
    (h : a.write ++ r = b.write ++ s) : a = b ∧ r = s := by
  cases a with
  | int v =>
    cases b with
    | int w =>
      have hparen : ∀ i : Int, ')' ∉ Text.signedDecimal i :=
        Text.not_mem_signedDecimal (by decide) (by decide)
      obtain ⟨hdecimal, hrest⟩ := tagged_append_inj (hparen _) (hparen _) h
      rw [Int64.toInt_inj.mp (Text.signedDecimal_inj hdecimal)]
      exact ⟨rfl, hrest⟩
    | _ => cases hform
  | str t =>
    cases b with
    | str t' =>
      obtain ⟨rfl, hrest⟩ := Text.quoted_append_inj (tagged_append_cancel h)
      exact ⟨rfl, (List.cons.inj hrest).2⟩
    | _ => cases hform
  | bool x =>
    cases b with
    | bool y =>
      have hparen : ∀ x, ')' ∉ writeBool x := by decide
      have hinj : ∀ x y, writeBool x = writeBool y → x = y := by decide
      obtain ⟨hbool, hrest⟩ := tagged_append_inj (hparen _) (hparen _) h
      rw [hinj x y hbool]
      exact ⟨rfl, hrest⟩
    | _ => cases hform
  | null =>
    cases b with
    | null => exact ⟨rfl, List.append_cancel_left h⟩
    | _ => cases hform
  | column c =>
    cases b with
    | column d =>
      obtain ⟨hcolumn, hrest⟩ := tagged_append_inj ha.paren_not_mem hb.paren_not_mem h
      have hdisplay : c.display = d.display := congrArg String.ofList hcolumn
      rw [← Column.parse_display ha.isDotted, hdisplay, Column.parse_display hb.isDotted]
      exact ⟨rfl, hrest⟩
    | _ => cases hform
  | float x | date d | datetime t => exact absurd ha id

end Leaf

namespace Expr

def Connective.all : List Connective :=
  [.arith .add, .arith .sub, .arith .mul, .arith .div, .logic .and, .logic .or, .compare .eq,
    .compare .ne, .compare .lt, .compare .le, .compare .gt, .compare .ge]

def Connective.symbol : Connective → String
  | .arith op => op.symbol
  | .logic op => op.keyword
  | .compare op => op.symbol

/-- What stands between the operand and what follows it in parentheses. -/
def operators : List String := "is" :: Connective.all.map Connective.symbol

section Operators

variable {c d : Connective} {t u : Option Bool} {i j : String} {r s : List Char}

theorem Connective.mem_all (c : Connective) : c ∈ all := by
  rcases c with op | op | op <;> cases op <;> decide

theorem Connective.symbol_mem_operators (c : Connective) : c.symbol ∈ operators :=
  List.mem_cons_of_mem _ (List.mem_map_of_mem c.mem_all)

theorem nodup_operators : operators.Nodup := by decide

theorem Connective.symbol_inj (h : c.symbol = d.symbol) : c = d :=
  List.inj_on_of_nodup_map nodup_operators.of_cons c.mem_all d.mem_all h

theorem Connective.symbol_ne_is (c : Connective) : c.symbol ≠ "is" := by
  intro h
  exact (List.nodup_cons.mp nodup_operators).1 (h ▸ List.mem_map_of_mem c.mem_all)

theorem operator_append_inj (hi : i ∈ operators) (hj : j ∈ operators)
    (h : i.toList ++ ' ' :: r = j.toList ++ ' ' :: s) : i = j ∧ r = s := by
  have hspace : ∀ i ∈ operators, ' ' ∉ i.toList := by decide
  obtain ⟨hoperator, hrest⟩ := Text.append_stop_inj (hspace i hi) (hspace j hj) h
  exact ⟨String.toList_inj.mp hoperator, hrest⟩

theorem target_append_inj
    (h : (targetName t).toList ++ ')' :: r = (targetName u).toList ++ ')' :: s) :
    t = u ∧ r = s := by
  have hparen : ∀ t, ')' ∉ (targetName t).toList := by
    rintro (_ | _ | _) <;> decide
  have hinj : ∀ t u, (targetName t).toList = (targetName u).toList → t = u := by
    rintro (_ | _ | _) (_ | _ | _) <;> decide
  obtain ⟨htarget, hrest⟩ := Text.append_stop_inj (hparen t) (hparen u) h
  exact ⟨hinj t u htarget, hrest⟩

end Operators

def form : Expr → Form
  | .leaf a => a.form
  | .sign negative _ => .sign negative
  | .not _ => .not
  | .arith .. | .logic .. | .is .. | .compare .. => .infixed

/-- Every leaf is an integer, a truth value, NULL, a text or a column that is named by words. -/
def IsLegible (e : Expr) : Prop := ∀ a ∈ e.leaves, a.IsLegible

section Write

variable {e e' x l r : Expr} {a : Leaf} {negative : Bool} {rest rest' : List Char}

theorem write_join (c : Connective) (l r : Expr) :
    (c.join l r).write = between l.write c.symbol r.write := by
  cases c <;> rfl

theorem isLegible_join {c : Connective} :
    (c.join l r).IsLegible ↔ l.IsLegible ∧ r.IsLegible := by
  cases c <;> exact List.forall_mem_append

theorem form_join (c : Connective) (l r : Expr) : (c.join l r).form = .infixed := by
  cases c <;> rfl

theorem opening_isPrefix_write (e : Expr) : e.form.opening <+: e.write := by
  cases e with
  | leaf a => exact a.opening_isPrefix_write
  | sign negative x => cases negative <;> exact ⟨_, rfl⟩
  | _ => exact ⟨_, rfl⟩

theorem form_eq (h : e.write ++ rest = e'.write ++ rest') : e.form = e'.form := by
  have hopening := e.opening_isPrefix_write.trans (List.prefix_append _ rest)
  have hopening' := e'.opening_isPrefix_write.trans (List.prefix_append _ rest')
  rw [← h] at hopening'
  exact Form.eq_of_opening_isPrefix hopening hopening'

theorem eq_leaf_of_form (h : e.form = a.form) : ∃ b, e = .leaf b ∧ b.form = a.form := by
  cases e with
  | leaf b => exact ⟨b, rfl, h⟩
  | _ => cases a <;> cases h

theorem eq_sign_of_form (h : e.form = .sign negative) : ∃ x, e = .sign negative x := by
  cases e with
  | leaf a => cases a <;> cases h
  | sign _ x => cases h; exact ⟨x, rfl⟩
  | _ => cases h

theorem eq_not_of_form (h : e.form = .not) : ∃ x, e = .not x := by
  cases e with
  | leaf a => cases a <;> cases h
  | not x => exact ⟨x, rfl⟩
  | _ => cases h

theorem eq_infixed_of_form (h : e.form = .infixed) :
    (∃ c l r, e = Connective.join c l r) ∨ ∃ x target, e = .is x target := by
  cases e with
  | leaf a => cases a <;> cases h
  | sign _ x | not x => cases h
  | arith op l r => exact Or.inl ⟨.arith op, l, r, rfl⟩
  | logic op l r => exact Or.inl ⟨.logic op, l, r, rfl⟩
  | compare op l r => exact Or.inl ⟨.compare op, l, r, rfl⟩
  | is x target => exact Or.inr ⟨x, target, rfl⟩

/-- Induction with all nodes of two operands in one case. -/
@[elab_as_elim]
theorem induction_join {P : Expr → Prop} (leaf : ∀ a, P (.leaf a))
    (sign : ∀ negative x, P x → P (.sign negative x)) (not : ∀ x, P x → P (.not x))
    (is : ∀ x target, P x → P (.is x target))
    (join : ∀ c l r, P l → P r → P (Connective.join c l r)) (e : Expr) : P e := by
  induction e with
  | leaf a => exact leaf a
  | sign negative x ih => exact sign negative x ih
  | not x ih => exact not x ih
  | is x target ih => exact is x target ih
  | arith op l r ihl ihr => exact join (.arith op) l r ihl ihr
  | logic op l r ihl ihr => exact join (.logic op) l r ihl ihr
  | compare op l r ihl ihr => exact join (.compare op) l r ihl ihr

theorem between_append (left right : List Char) (operator : String) (rest : List Char) :
    between left operator right ++ rest =
      '(' :: (left ++ ' ' :: (operator.toList ++ ' ' :: (right ++ ')' :: rest))) := by
  simp [between]

/-- A text that begins with a legible tree begins with no other one. -/
theorem write_append_inj (he : e.IsLegible) (he' : e'.IsLegible)
    (h : e.write ++ rest = e'.write ++ rest') : e = e' ∧ rest = rest' := by
  induction e using induction_join generalizing e' rest rest' with
  | leaf a =>
    obtain ⟨b, rfl, hab⟩ := eq_leaf_of_form (form_eq h).symm
    have ha : a.IsLegible := he a (.head _)
    have hb : b.IsLegible := he' b (.head _)
    obtain ⟨rfl, hrest⟩ := Leaf.write_append_inj ha hb hab.symm h
    exact ⟨rfl, hrest⟩
  | sign negative x ih =>
    obtain ⟨y, rfl⟩ := eq_sign_of_form (form_eq h).symm
    have hy : y.IsLegible := he'
    rw [write, write, List.append_assoc, List.append_assoc] at h
    obtain ⟨rfl, hrest⟩ := ih he hy (tagged_append_cancel (List.append_cancel_left h))
    exact ⟨rfl, (List.cons.inj hrest).2⟩
  | not x ih =>
    obtain ⟨y, rfl⟩ := eq_not_of_form (form_eq h).symm
    have hy : y.IsLegible := he'
    rw [write, write, List.append_assoc, List.append_assoc] at h
    obtain ⟨rfl, hrest⟩ := ih he hy (List.append_cancel_left h)
    exact ⟨rfl, hrest⟩
  | is x target ih =>
    -- Both kinds of nodes in parentheses open alike.  The operator behind the first operand, which
    -- is the same in both by induction, tells a test from the others.
    obtain ⟨c, l, r, rfl⟩ | ⟨y, target', rfl⟩ := eq_infixed_of_form (form_eq h).symm
    · rw [write, write_join, between_append, between_append] at h
      obtain ⟨rfl, htail⟩ := ih he (isLegible_join.mp he').1 (List.cons.inj h).2
      have hoperator :=
        operator_append_inj (.head _) c.symbol_mem_operators (List.cons.inj htail).2
      exact absurd hoperator.1.symm c.symbol_ne_is
    · have hy : y.IsLegible := he'
      rw [write, write, between_append, between_append] at h
      obtain ⟨rfl, htail⟩ := ih he hy (List.cons.inj h).2
      have hoperator := operator_append_inj (.head _) (.head _) (List.cons.inj htail).2
      obtain ⟨rfl, hrest⟩ := target_append_inj hoperator.2
      exact ⟨rfl, hrest⟩
  | join c l r ihl ihr =>
    obtain ⟨hl, hr⟩ := isLegible_join.mp he
    obtain ⟨c', l', r', rfl⟩ | ⟨y, target, rfl⟩ :=
      eq_infixed_of_form ((form_eq h).symm.trans (form_join c l r))
    · obtain ⟨hl', hr'⟩ := isLegible_join.mp he'
      rw [write_join, write_join, between_append, between_append] at h
      obtain ⟨rfl, htail⟩ := ihl hl hl' (List.cons.inj h).2
      obtain ⟨hsymbol, htail'⟩ :=
        operator_append_inj c.symbol_mem_operators c'.symbol_mem_operators (List.cons.inj htail).2
      obtain rfl := Connective.symbol_inj hsymbol
      obtain ⟨rfl, hrest⟩ := ihr hr hr' htail'
      exact ⟨rfl, (List.cons.inj hrest).2⟩
    · have hy : y.IsLegible := he'
      rw [write_join, write, between_append, between_append] at h
      obtain ⟨rfl, htail⟩ := ihl hl hy (List.cons.inj h).2
      have hoperator :=
        operator_append_inj c.symbol_mem_operators (.head _) (List.cons.inj htail).2
      exact absurd hoperator.1 c.symbol_ne_is

end Write

/-- Legible trees that are displayed alike are equal. -/
theorem display_eq_iff_of_isLegible {e₁ e₂ : Expr} (h₁ : e₁.IsLegible) (h₂ : e₂.IsLegible) :
    e₁.display = e₂.display ↔ e₁ = e₂ := by
  constructor
  · intro h
    have hwrite : e₁.write ++ [] = e₂.write ++ [] := by
      rw [String.ofList_inj.mp h]
    exact (write_append_inj h₁ h₂ hwrite).1
  · rintro rfl
    rfl

/-- A negated test and the test of a negation are told apart, whatever the text in them says. -/
theorem display_eq_iff_of_isLegible_tested :
    IsLegible (.is (.not (.compare .lt (.sign true (column ⟨["t", "_a1"]⟩))
      (str "1\") is TRUE)"))) (some true)) ∧
    IsLegible (.not (.is (.compare .lt (.sign true (column ⟨["t", "_a1"]⟩))
      (str "1\") is TRUE)")) (some true))) ∧
    display (.is (.not (.compare .lt (.sign true (column ⟨["t", "_a1"]⟩))
      (str "1\") is TRUE)"))) (some true)) ≠
    display (.not (.is (.compare .lt (.sign true (column ⟨["t", "_a1"]⟩))
      (str "1\") is TRUE)")) (some true))) := by
  have hcolumn : (Leaf.column ⟨["t", "_a1"]⟩).IsLegible := ⟨nofun, by decide⟩
  have hstr : (Leaf.str "1\") is TRUE)").IsLegible := trivial
  have hleaves : ∀ a ∈ [Leaf.column ⟨["t", "_a1"]⟩, .str "1\") is TRUE)"], a.IsLegible :=
    List.forall_mem_cons.mpr ⟨hcolumn, List.forall_mem_singleton.mpr hstr⟩
  refine ⟨hleaves, hleaves, ?_⟩
  refine mt (display_eq_iff_of_isLegible ?_ ?_).mp nofun
  · exact hleaves
  · exact hleaves

/-- A dot in a part is not told from one between parts. -/
example : display (column ⟨["a.b"]⟩) = display (column ⟨["a", "b"]⟩) := by decide

end Expr

end QueryExpr
