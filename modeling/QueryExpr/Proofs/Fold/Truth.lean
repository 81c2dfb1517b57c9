/-
Truth in three values.

A truth value that is unknown is `none`.  A connective of Kleene's logic is known as
soon as one operand decides it, and a test asks which of the three values there is.
-/
import QueryExpr.Proofs.Fold.Rules

namespace QueryExpr
namespace Truth

def negate (a : Option Bool) : Option Bool := a.map fun b => !b

def both : Option Bool → Option Bool → Option Bool
  | some false, _ => some false
  | _, some false => some false
  | some true, some true => some true
  | _, _ => none

def either : Option Bool → Option Bool → Option Bool
  | some true, _ => some true
  | _, some true => some true
  | some false, some false => some false
  | _, _ => none

def connect : LogicOp → Option Bool → Option Bool → Option Bool
  | .and => both
  | .or => either

def test (a target : Option Bool) : Bool := a == target

/-- A connective has its deciding value exactly when an operand has it. -/
theorem connect_eq_deciding_iff {op : LogicOp} {a b : Option Bool} :
    connect op a b = some op.deciding ↔ a = some op.deciding ∨ b = some op.deciding := by
  cases op <;> rcases a with _ | _ | _ <;> rcases b with _ | _ | _ <;> decide

theorem connect_undecided (op : LogicOp) :
    connect op (some !op.deciding) (some !op.deciding) = some !op.deciding := by
  cases op <;> rfl

/-- Without a deciding operand an unknown one makes the connective unknown. -/
theorem connect_eq_none {op : LogicOp} {a b : Option Bool} (hx : a = none ∨ b = none)
    (ha : a ≠ some op.deciding) (hb : b ≠ some op.deciding) : connect op a b = none := by
  cases op <;> rcases a with _ | _ | _ <;> rcases b with _ | _ | _ <;>
    simp_all [connect, both, either, LogicOp.deciding]

/-- Nothing is known of `a` that `b` does not confirm: `a` is unknown or it is `b`. -/
def Within {α : Type} (a b : Option α) : Prop := a = none ∨ a = b

namespace Within

variable {α β : Type} {a b c : Option α}

theorem refl (a : Option α) : Within a a := Or.inr rfl

theorem trans (h : Within a b) (k : Within b c) : Within a c := by
  rcases h with rfl | rfl
  · exact Or.inl rfl
  · exact k

theorem map (f : α → β) (h : Within a b) : Within (a.map f) (b.map f) := by
  rcases h with rfl | rfl
  · exact Or.inl rfl
  · exact refl _

end Within

theorem connect_comm (op : LogicOp) (a b : Option Bool) : connect op a b = connect op b a := by
  cases op <;> rcases a with _ | _ | _ <;> rcases b with _ | _ | _ <;> rfl

theorem connect_none_within (op : LogicOp) (a b : Option Bool) :
    Within (connect op none b) (connect op a b) := by
  cases op <;> rcases a with _ | _ | _ <;> rcases b with _ | _ | _ <;>
    simp [Within, connect, both, either]

/-- Knowing less of the operands never makes a connective say something else. -/
theorem connect_within {op : LogicOp} {a a' b b' : Option Bool} (ha : Within a a')
    (hb : Within b b') : Within (connect op a b) (connect op a' b') := by
  have hleft : Within (connect op a b) (connect op a' b) := by
    rcases ha with rfl | rfl
    · exact connect_none_within op a' b
    · exact .refl _
  have hright : Within (connect op a' b) (connect op a' b') := by
    rcases hb with rfl | rfl
    · rw [connect_comm op a' none, connect_comm op a' b']
      exact connect_none_within op b' a'
    · exact .refl _
  exact hleft.trans hright

end Truth
end QueryExpr
