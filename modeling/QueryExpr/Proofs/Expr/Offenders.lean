/-
Values that stand for no tree.

`Offends` says which values are refused for what they are themselves, whatever stands in them, and
with which cause.  Operands are decoded from left to right and the first one that is refused ends
it, so the error of a value is that of the first offender in it, and it is reached through operands
before which all others were decoded.
-/
import Mathlib.Logic.Relation
import QueryExpr.Proofs.Expr.Encoding

namespace QueryExpr
namespace Expr

open Relation (ReflTransGen)

def textKeys : List String := ["column", "date", "datetime"]

def pairKeys : List String := "is" :: connectiveKeys.map Prod.fst

def nodeKeys : List String := textKeys ++ signKeys.map Prod.fst ++ "not" :: pairKeys

/-- The value is refused for its own shape or text, with the given error. -/
inductive Offends : Json → Error → Prop where
  | list (items : List Json) : Offends (.array items) (.unsupported (.array items))
  | members {members : List (String × Json)} (h : members.length ≠ 1) :
      Offends (.object members) (.malformed (.notSingleKey (.object members)))
  | unknown {key : String} (body : Json) (hkey : key ∉ nodeKeys) :
      Offends (.object [(key, body)]) (.malformed (.unknownNode key))
  | text {key : String} {body : Json} (hkey : key ∈ textKeys) (hbody : ∀ s, body ≠ .string s) :
      Offends (.object [(key, body)]) (.malformed (.notText key body))
  | date {s : String} {f : Calendar.Fault} (hs : Calendar.readDate s.toList = .error f) :
      Offends (.object [("date", .string s)]) (.malformed (.badDate s f))
  | datetime {s : String} {f : Calendar.Fault} (hs : Calendar.readDatetime s.toList = .error f) :
      Offends (.object [("datetime", .string s)]) (.malformed (.badDatetime s f))
  | pair {key : String} {body : Json} (hkey : key ∈ pairKeys)
      (hbody : ∀ v w, body ≠ .array [v, w]) :
      Offends (.object [(key, body)]) (.malformed (.notPair key body))
  | target (v : Json) {w : Json} (hw : ∀ target, w ≠ targetJson target) :
      Offends (.object [("is", .array [v, w])]) (.malformed (.notTarget w))

/-- The value `u` is an operand of the other one, and the operand to the left of it, if there is
one, is decoded. -/
inductive IsTried (u : Json) : Json → Prop where
  | sign {key : String} {negative : Bool} (hkey : (key, negative) ∈ signKeys) :
      IsTried u (.object [(key, u)])
  | not : IsTried u (.object [("not", u)])
  | is (target : Option Bool) : IsTried u (.object [("is", .array [u, targetJson target])])
  | left {key : String} {c : Connective} (r : Json) (hkey : (key, c) ∈ connectiveKeys) :
      IsTried u (.object [(key, .array [u, r])])
  | right {key : String} {c : Connective} {l : Json} {x : Expr}
      (hkey : (key, c) ∈ connectiveKeys) (hl : ofJson l = .ok x) :
      IsTried u (.object [(key, .array [l, u])])

/-- An offender in the value is reached, and its error is the given one. -/
def HasOffender (v : Json) (x : Error) : Prop := ∃ u, ReflTransGen IsTried u v ∧ Offends u x

section Keys

variable {key : String}

theorem nodeKeys_eq : nodeKeys = Tag.all.map Tag.name := rfl

theorem ofName?_eq_none_iff : Tag.ofName? key = none ↔ key ∉ nodeKeys := by
  rw [nodeKeys_eq, Tag.ofName?, List.find?_eq_none]
  simp

theorem mem_textKeys_iff :
    key ∈ textKeys ↔
      key = Tag.column.name ∨ key = Tag.date.name ∨ key = Tag.datetime.name := by
  simp [textKeys, Tag.name]

theorem mem_pairKeys_iff :
    key ∈ pairKeys ↔ key = Tag.is.name ∨ ∃ c, key = (Tag.connective c).name := by
  simp [pairKeys, mem_connectiveKeys_iff, Tag.name]

end Keys

section Refused

variable {key : String} {u v w body : Json} {x : Error} {e : Expr}

theorem expectText_eq_error :
    expectText key body = .error x ↔
      (∀ s, body ≠ .string s) ∧ x = .malformed (.notText key body) := by
  cases body with
  | string s => exact iff_of_false nofun fun h => h.1 s rfl
  | _ => simp [expectText, eq_comm]

theorem expectTarget_eq_error :
    expectTarget w = .error x ↔
      (∀ target, w ≠ targetJson target) ∧ x = .malformed (.notTarget w) := by
  cases w with
  | null => exact iff_of_false nofun fun h => h.1 none rfl
  | bool b => exact iff_of_false nofun fun h => h.1 (some b) rfl
  | _ =>
    constructor
    · intro h
      cases h
      refine ⟨?_, rfl⟩
      intro target htarget
      cases target <;> cases htarget
    · rintro ⟨-, rfl⟩
      rfl

theorem ofDate_eq_error {s : String} :
    ofDate s = .error x ↔
      ∃ f, Calendar.readDate s.toList = .error f ∧ x = .malformed (.badDate s f) := by
  rw [ofDate]
  cases Calendar.readDate s.toList with
  | ok d => simp
  | error f => simp [eq_comm]

theorem ofDatetime_eq_error {s : String} :
    ofDatetime s = .error x ↔
      ∃ f, Calendar.readDatetime s.toList = .error f ∧ x = .malformed (.badDatetime s f) := by
  rw [ofDatetime]
  cases Calendar.readDatetime s.toList with
  | ok d => simp
  | error f => simp [eq_comm]

theorem ofJson_array (items : List Json) :
    ofJson (.array items) = .error (.unsupported (.array items)) := by
  rw [ofJson.eq_def]
  rfl

theorem ofJson_members {members : List (String × Json)} (h : members.length ≠ 1) :
    ofJson (.object members) = .error (.malformed (.notSingleKey (.object members))) := by
  rw [ofJson.eq_def]
  cases members with
  | nil => rfl
  | cons first members =>
    cases members with
    | nil => exact absurd rfl h
    | cons second members => rfl

theorem ofJson_unknown (body : Json) (hkey : key ∉ nodeKeys) :
    ofJson (.object [(key, body)]) = .error (.malformed (.unknownNode key)) := by
  rw [ofJson.eq_def]
  simp only [ofName?_eq_none_iff.mpr hkey]

theorem ofJson_notPair (hkey : key ∈ pairKeys) (hbody : ∀ v w, body ≠ .array [v, w]) :
    ofJson (.object [(key, body)]) = .error (.malformed (.notPair key body)) := by
  rw [ofJson.eq_def]
  rcases mem_pairKeys_iff.mp hkey with rfl | ⟨c, rfl⟩
  · simp only [Tag.ofName?_name]
  · simp only [Tag.ofName?_name]

theorem ofJson_number_ne_error (n : Json.Number) : ofJson (.number n) ≠ .error x := by
  cases n with
  | real y finite => nofun
  | integer i inRange =>
    rw [ofJson.eq_def]
    cases hi : Integer.fit? i <;> simp [ofScalar, hi]

/-- An offender is refused with its own error. -/
theorem Offends.ofJson (h : Offends u x) : ofJson u = .error x := by
  cases h with
  | list items => exact ofJson_array items
  | members h => exact ofJson_members h
  | unknown body hkey => exact ofJson_unknown body hkey
  | @text key body hkey hbody =>
    have hread : expectText key body = .error (.malformed (.notText key body)) :=
      expectText_eq_error.mpr ⟨hbody, rfl⟩
    rcases mem_textKeys_iff.mp hkey with rfl | rfl | rfl
    · refine (ofJson_column body).trans ?_
      exact Outcome.map_eq_error.mpr hread
    · refine (ofJson_date body).trans ?_
      exact Outcome.bind_eq_error.mpr (Or.inl hread)
    · refine (ofJson_datetime body).trans ?_
      exact Outcome.bind_eq_error.mpr (Or.inl hread)
  | @date s f hs =>
    refine (ofJson_date (.string s)).trans ?_
    rw [expectText_eq_ok.mpr rfl, Outcome.ok_bind]
    exact ofDate_eq_error.mpr ⟨f, hs, rfl⟩
  | @datetime s f hs =>
    refine (ofJson_datetime (.string s)).trans ?_
    rw [expectText_eq_ok.mpr rfl, Outcome.ok_bind]
    exact ofDatetime_eq_error.mpr ⟨f, hs, rfl⟩
  | pair hkey hbody => exact ofJson_notPair hkey hbody
  | target v hw =>
    refine (ofJson_is v _).trans ?_
    exact Outcome.bind_eq_error.mpr (Or.inl (expectTarget_eq_error.mpr ⟨hw, rfl⟩))

/-- A value with a refused operand is refused with the operand's error. -/
theorem IsTried.ofJson_eq_error (h : IsTried u v) (hu : Expr.ofJson u = .error x) :
    Expr.ofJson v = .error x := by
  cases h with
  | sign hkey =>
    obtain rfl := mem_signKeys_iff.mp hkey
    refine (ofJson_sign _ u).trans ?_
    exact Outcome.map_eq_error.mpr hu
  | not =>
    refine (ofJson_not u).trans ?_
    exact Outcome.map_eq_error.mpr hu
  | is target =>
    refine (ofJson_is u _).trans ?_
    rw [expectTarget_eq_ok.mpr rfl, Outcome.ok_bind, hu, Outcome.error_bind]
  | left r hkey =>
    obtain rfl := mem_connectiveKeys_iff.mp hkey
    refine (ofJson_connective _ u r).trans ?_
    rw [hu, Outcome.error_bind]
  | right hkey hl =>
    obtain rfl := mem_connectiveKeys_iff.mp hkey
    refine (ofJson_connective _ _ u).trans ?_
    rw [hl, Outcome.ok_bind, hu, Outcome.error_bind]

theorem HasOffender.self (h : Offends v x) : HasOffender v x := ⟨v, .refl, h⟩

theorem HasOffender.tail (h : HasOffender u x) (hstep : IsTried u v) : HasOffender v x := by
  obtain ⟨w, hpath, hw⟩ := h
  exact ⟨w, hpath.tail hstep, hw⟩

theorem HasOffender.ofJson (h : HasOffender v x) : Expr.ofJson v = .error x := by
  obtain ⟨u, hpath, hu⟩ := h
  induction hpath with
  | refl => exact hu.ofJson
  | tail _ hstep ih => exact hstep.ofJson_eq_error ih

theorem offends_of_expectText (hkey : key ∈ textKeys) (h : expectText key body = .error x) :
    Offends (.object [(key, body)]) x := by
  obtain ⟨hbody, rfl⟩ := expectText_eq_error.mp h
  exact .text hkey hbody

theorem offends_column (h : Expr.ofJson (node .column body) = .error x) :
    Offends (node .column body) x := by
  rw [ofJson_column] at h
  exact offends_of_expectText (.head _) (Outcome.map_eq_error.mp h)

theorem offends_date (h : Expr.ofJson (node .date body) = .error x) :
    Offends (node .date body) x := by
  rw [ofJson_date] at h
  obtain hread | ⟨s, hs, hdate⟩ := Outcome.bind_eq_error.mp h
  · exact offends_of_expectText (.tail _ (.head _)) hread
  · obtain rfl := expectText_eq_ok.mp hs
    obtain ⟨f, hf, rfl⟩ := ofDate_eq_error.mp hdate
    exact .date hf

theorem offends_datetime (h : Expr.ofJson (node .datetime body) = .error x) :
    Offends (node .datetime body) x := by
  rw [ofJson_datetime] at h
  obtain hread | ⟨s, hs, hdatetime⟩ := Outcome.bind_eq_error.mp h
  · exact offends_of_expectText (.tail _ (.tail _ (.head _))) hread
  · obtain rfl := expectText_eq_ok.mp hs
    obtain ⟨f, hf, rfl⟩ := ofDatetime_eq_error.mp hdatetime
    exact .datetime hf

theorem offends_of_notPair (hkey : key ∈ pairKeys) (hbody : ∀ v w, body ≠ .array [v, w])
    (h : Expr.ofJson (.object [(key, body)]) = .error x) :
    Offends (.object [(key, body)]) x := by
  cases (ofJson_notPair hkey hbody).symm.trans h
  exact .pair hkey hbody

/-- A refused value has an offender in it that was reached, along the calls of the decoder. -/
theorem hasOffender_of_ofJson (h : Expr.ofJson v = .error x) : HasOffender v x := by
  induction v using ofJson.induct generalizing x with
  | case1 key body hkey =>
    have hkey := ofName?_eq_none_iff.mp hkey
    cases (ofJson_unknown body hkey).symm.trans h
    exact .self (.unknown body hkey)
  | case2 key body hkey =>
    obtain rfl := ofName?_eq_some_iff.mp hkey
    exact .self (offends_column h)
  | case3 key body hkey =>
    obtain rfl := ofName?_eq_some_iff.mp hkey
    exact .self (offends_date h)
  | case4 key body hkey =>
    obtain rfl := ofName?_eq_some_iff.mp hkey
    exact .self (offends_datetime h)
  | case5 key body negative hkey ih =>
    obtain rfl := ofName?_eq_some_iff.mp hkey
    have hbody := Outcome.map_eq_error.mp ((ofJson_sign negative body).symm.trans h)
    exact (ih hbody).tail (.sign (mem_signKeys_iff.mpr rfl))
  | case6 key body hkey ih =>
    obtain rfl := ofName?_eq_some_iff.mp hkey
    have hbody := Outcome.map_eq_error.mp ((ofJson_not body).symm.trans h)
    exact (ih hbody).tail .not
  | case7 key hkey v w ih =>
    obtain rfl := ofName?_eq_some_iff.mp hkey
    have h' := (ofJson_is v w).symm.trans h
    obtain htarget | ⟨target, htarget, hrest⟩ := Outcome.bind_eq_error.mp h'
    · obtain ⟨hw, rfl⟩ := expectTarget_eq_error.mp htarget
      exact .self (.target v hw)
    · obtain rfl := expectTarget_eq_ok.mp htarget
      obtain hv | ⟨e, -, hok⟩ := Outcome.bind_eq_error.mp hrest
      · exact (ih hv).tail (.is target)
      · cases hok
  | case8 key hkey body hbody =>
    obtain rfl := ofName?_eq_some_iff.mp hkey
    exact .self (offends_of_notPair (mem_pairKeys_iff.mpr (Or.inl rfl)) hbody h)
  | case9 key c hkey l r ihl ihr =>
    obtain rfl := ofName?_eq_some_iff.mp hkey
    have hmem := mem_connectiveKeys_iff.mpr (rfl : (Tag.connective c).name = _)
    have h' := (ofJson_connective c l r).symm.trans h
    obtain hl | ⟨e, hl, hrest⟩ := Outcome.bind_eq_error.mp h'
    · exact (ihl hl).tail (.left r hmem)
    · obtain hr | ⟨e', -, hok⟩ := Outcome.bind_eq_error.mp hrest
      · exact (ihr hr).tail (.right hmem hl)
      · cases hok
  | case10 key c hkey body hbody =>
    obtain rfl := ofName?_eq_some_iff.mp hkey
    exact .self (offends_of_notPair (mem_pairKeys_iff.mpr (Or.inr ⟨c, rfl⟩)) hbody h)
  | case11 members hmembers =>
    have hlength : members.length ≠ 1 := by
      intro hlength
      obtain ⟨⟨key, body⟩, rfl⟩ := List.length_eq_one_iff.mp hlength
      exact hmembers key body rfl
    cases (ofJson_members hlength).symm.trans h
    exact .self (.members hlength)
  | case12 v hsingle hobject =>
    cases v with
    | object members => exact absurd rfl (hobject members)
    | array items =>
      cases (ofJson_array items).symm.trans h
      exact .self (.list items)
    | number n => exact absurd h (ofJson_number_ne_error n)
    | _ => cases h

/-- A value is refused just when there is an offender in it, and with the offender's error. -/
theorem ofJson_eq_error_iff : Expr.ofJson v = .error x ↔ HasOffender v x :=
  ⟨hasOffender_of_ofJson, HasOffender.ofJson⟩

/-- Only a list is refused as a value of an unsupported kind. -/
theorem Offends.unsupported_or_malformed (h : Offends u x) :
    (∃ items, u = .array items) ∧ x = .unsupported u ∨
      (∀ items, u ≠ .array items) ∧ ∃ cause, x = .malformed cause := by
  cases h with
  | list items => exact Or.inl ⟨⟨items, rfl⟩, rfl⟩
  | _ => exact Or.inr ⟨nofun, _, rfl⟩

/-- Whatever stands where an operand does in a decoded value is decoded. -/
theorem IsOperandOf.exists_ofJson_eq_ok (h : IsOperandOf u v) (hv : Expr.ofJson v = .ok e) :
    ∃ y, Expr.ofJson u = .ok y := by
  induction h generalizing e with
  | self => exact ⟨e, hv⟩
  | sign hkey hu ih =>
    obtain rfl := mem_signKeys_iff.mp hkey
    obtain ⟨y, hy, -⟩ := Outcome.map_eq_ok.mp ((ofJson_sign _ _).symm.trans hv)
    exact ih hy
  | not hu ih =>
    obtain ⟨y, hy, -⟩ := Outcome.map_eq_ok.mp ((ofJson_not _).symm.trans hv)
    exact ih hy
  | is target hu ih =>
    obtain ⟨t, -, hrest⟩ := Outcome.bind_eq_ok.mp ((ofJson_is _ _).symm.trans hv)
    obtain ⟨y, hy, -⟩ := Outcome.bind_eq_ok.mp hrest
    exact ih hy
  | left r hkey hu ih =>
    obtain rfl := mem_connectiveKeys_iff.mp hkey
    obtain ⟨y, hy, -⟩ := Outcome.bind_eq_ok.mp ((ofJson_connective _ _ _).symm.trans hv)
    exact ih hy
  | right l hkey hu ih =>
    obtain rfl := mem_connectiveKeys_iff.mp hkey
    obtain ⟨y, -, hrest⟩ := Outcome.bind_eq_ok.mp ((ofJson_connective _ _ _).symm.trans hv)
    obtain ⟨z, hz, -⟩ := Outcome.bind_eq_ok.mp hrest
    exact ih hz

end Refused

/-- The error of a refused value is that of the first offender in it, which is refused alone with
the same error.  A list is refused as unsupported and under its own text, and any other offender
as malformed.  So nothing but a list is ever unsupported, and no tree is made of a value with a
refused operand. -/
theorem error_at_first_offender :
    (∀ v x, ofJson v = .error x →
      ∃ u, ReflTransGen IsTried u v ∧ Offends u x ∧ ofJson u = .error x ∧
        ((∃ w, x = .unsupported w) ↔ ∃ items, u = .array items) ∧
        (∀ items, u = .array items → x = .unsupported u ∧ u.kind = "array" ∧
          x.message = "unsupported literal type: array (" ++ u.compact ++ ")") ∧
        ((∀ items, u ≠ .array items) → ∃ cause, x = .malformed cause)) ∧
      (∀ v w, ofJson v = .error (.unsupported w) → ∃ items, w = .array items) ∧
      ∀ u v x, IsOperandOf u v → ofJson u = .error x → ∀ e, ofJson v ≠ .ok e := by
  refine ⟨?_, ?_, ?_⟩
  · intro v x hv
    obtain ⟨u, hpath, hu⟩ := ofJson_eq_error_iff.mp hv
    refine ⟨u, hpath, hu, hu.ofJson, ?_⟩
    obtain ⟨⟨items, rfl⟩, rfl⟩ | ⟨hnot, cause, rfl⟩ := hu.unsupported_or_malformed
    · refine ⟨iff_of_true ⟨_, rfl⟩ ⟨items, rfl⟩, fun _ _ => ⟨rfl, rfl, rfl⟩, ?_⟩
      intro hnot
      exact absurd rfl (hnot items)
    · refine ⟨iff_of_false nofun fun ⟨items, h⟩ => hnot items h, ?_, fun _ => ⟨cause, rfl⟩⟩
      intro items h
      exact absurd h (hnot items)
  · intro v w hv
    obtain ⟨u, -, hu⟩ := ofJson_eq_error_iff.mp hv
    obtain ⟨hitems, hw⟩ | ⟨-, cause, hw⟩ := hu.unsupported_or_malformed
    · cases hw
      exact hitems
    · cases hw
  · intro u v x hoperand hu e hv
    obtain ⟨y, hy⟩ := hoperand.exists_ofJson_eq_ok hv
    cases hu.symm.trans hy

/-- A date without a day is reported and not the list to the right of it.  A list is reported
from below a sign, under its text, and not the date to the right of it. -/
theorem error_at_first_offender_left_of_another :
    (∃ u, ReflTransGen IsTried u (.object [("and", .array [
        .object [("lt", .array [.null, .object [("date", .string "2024-02-30")]])],
        .array []])]) ∧
      Offends u (.malformed (.badDate "2024-02-30" .outOfRange)) ∧ ∀ items, u ≠ .array items) ∧
    (∃ u, ReflTransGen IsTried u (.object [("add", .array [
        .object [("neg", .array [.null])], .object [("date", .string "2024-02-30")]])]) ∧
      Offends u (.unsupported (.array [.null])) ∧
      (Error.unsupported u).message = "unsupported literal type: array ([null])") ∧
    (∃ items, Json.array [.null] = .array items) ∧
    ∀ e, ofJson (.object [("add", .array [
      .object [("neg", .array [.null])], .object [("date", .string "2024-02-30")]])]) ≠ .ok e := by
  have hdate : ofJson (.object [("and", .array [
      .object [("lt", .array [.null, .object [("date", .string "2024-02-30")]])], .array []])]) =
      .error (.malformed (.badDate "2024-02-30" .outOfRange)) := rfl
  have hlist : ofJson (.object [("add", .array [
      .object [("neg", .array [.null])], .object [("date", .string "2024-02-30")]])]) =
      .error (.unsupported (.array [.null])) := rfl
  have hdateOperand : IsOperandOf (.object [("date", .string "2024-02-30")])
      (.object [("add", .array [
        .object [("neg", .array [.null])], .object [("date", .string "2024-02-30")]])]) :=
    .right _ (c := .arith .add) (by decide) .self
  refine ⟨?_, ?_, error_at_first_offender.2.1 _ _ hlist, ?_⟩
  · obtain ⟨u, hpath, hu, -, hiff, -⟩ := error_at_first_offender.1 _ _ hdate
    refine ⟨u, hpath, hu, fun items h => ?_⟩
    obtain ⟨w, hw⟩ := hiff.mpr ⟨items, h⟩
    cases hw
  · obtain ⟨u, hpath, hu, -, hiff, harray, -⟩ := error_at_first_offender.1 _ _ hlist
    obtain ⟨items, hitems⟩ := hiff.mp ⟨_, rfl⟩
    cases (harray items hitems).1
    exact ⟨_, hpath, hu, rfl⟩
  · exact error_at_first_offender.2.2 _ _ _ hdateOperand rfl

end Expr
end QueryExpr
