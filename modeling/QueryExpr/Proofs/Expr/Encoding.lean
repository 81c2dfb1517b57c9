/-
The tagged form of trees in JSON.

`Encodes` says which values stand for which trees, key by key.  Decoding accepts exactly
these, and gives the tree.  Every tree whose floats are finite and whose columns are dotted
names has a value, which is read back as the tree but for a leap second that does not end a
minute, since that is written as the next second.  A value is the only one of its tree but for
two liberties: a date may be written in several ways, and an integer beyond a signed word stands
for a float.
-/
import QueryExpr.Expr.Tagged
import QueryExpr.Proofs.Calendar.Reading
import QueryExpr.Proofs.Expr.Dotted
import QueryExpr.Proofs.Fold.Parts
import QueryExpr.Proofs.Outcome

namespace QueryExpr
namespace Expr

def signKeys : List (String × Bool) := [("neg", true), ("pos", false)]

def connectiveKeys : List (String × Connective) :=
  [("add", .arith .add), ("sub", .arith .sub), ("mul", .arith .mul), ("div", .arith .div),
    ("and", .logic .and), ("or", .logic .or), ("eq", .compare .eq), ("ne", .compare .ne),
    ("lt", .compare .lt), ("le", .compare .le), ("gt", .compare .gt), ("ge", .compare .ge)]

/-- The value stands for the tree. -/
inductive Encodes : Json → Expr → Prop where
  | null : Encodes .null null
  | bool (b : Bool) : Encodes (.bool b) (bool b)
  | int (v : Int64) : Encodes (.number (.integer v.toInt (Integer.wordRange v))) (int v)
  /-- An integer that no signed word holds is read as the nearest float. -/
  | wide {i : Int} {inRange : -0x8000_0000_0000_0000 ≤ i ∧ i < 0x1_0000_0000_0000_0000}
      (hi : ¬ Integer.Fits i) : Encodes (.number (.integer i inRange)) (float (Float.ofInt i))
  | float {x : Float} (finite : x.isFinite = true) : Encodes (.number (.real x finite)) (float x)
  | str (s : String) : Encodes (.string s) (str s)
  | column (s : String) :
      Encodes (.object [("column", .string s)])
        (column ⟨(s.toList.splitOn '.').map String.ofList⟩)
  | date {s : String} {d : Date} (hd : Calendar.readDate s.toList = .ok d) :
      Encodes (.object [("date", .string s)]) (.leaf (.date d))
  | datetime {s : String} {t : Datetime} (ht : Calendar.readDatetime s.toList = .ok t) :
      Encodes (.object [("datetime", .string s)]) (.leaf (.datetime t))
  | sign {key : String} {negative : Bool} {v : Json} {x : Expr}
      (hkey : (key, negative) ∈ signKeys) (hx : Encodes v x) :
      Encodes (.object [(key, v)]) (.sign negative x)
  | not {v : Json} {x : Expr} (hx : Encodes v x) : Encodes (.object [("not", v)]) (.not x)
  | is {v : Json} {x : Expr} (target : Option Bool) (hx : Encodes v x) :
      Encodes (.object [("is", .array [v, targetJson target])]) (.is x target)
  | connective {key : String} {c : Connective} {l r : Json} {x y : Expr}
      (hkey : (key, c) ∈ connectiveKeys) (hx : Encodes l x) (hy : Encodes r y) :
      Encodes (.object [(key, .array [l, r])]) (c.join x y)

theorem ofName?_eq_some_iff {key : String} {t : Tag} :
    Tag.ofName? key = some t ↔ key = t.name :=
  ⟨fun h => (Tag.name_of_ofName? h).symm, fun h => h ▸ Tag.ofName?_name t⟩

theorem mem_signKeys_iff {key : String} {negative : Bool} :
    (key, negative) ∈ signKeys ↔ key = (Tag.sign negative).name := by
  cases negative <;> simp [signKeys, Tag.name]

theorem mem_connectiveKeys_iff {key : String} {c : Connective} :
    (key, c) ∈ connectiveKeys ↔ key = (Tag.connective c).name := by
  rcases c with op | op | op <;> cases op <;> simp [connectiveKeys, Tag.name]

section Decode

variable {key : String} {body v w : Json} {e : Expr} {target : Option Bool}

theorem ofJson_column (body : Json) : ofJson (node .column body) =
    (expectText "column" body).map fun s => column (Column.parse s) := by
  rw [node, ofJson.eq_def]
  simp only [Tag.ofName?_name]
  rfl

theorem ofJson_date (body : Json) :
    ofJson (node .date body) = (expectText "date" body >>= ofDate) := by
  rw [node, ofJson.eq_def]
  simp only [Tag.ofName?_name]
  rfl

theorem ofJson_datetime (body : Json) :
    ofJson (node .datetime body) = (expectText "datetime" body >>= ofDatetime) := by
  rw [node, ofJson.eq_def]
  simp only [Tag.ofName?_name]
  rfl

theorem ofJson_sign (negative : Bool) (v : Json) :
    ofJson (node (.sign negative) v) = (ofJson v).map (.sign negative) := by
  rw [node, ofJson.eq_def]
  simp only [Tag.ofName?_name]

theorem ofJson_not (v : Json) : ofJson (node .not v) = (ofJson v).map .not := by
  rw [node, ofJson.eq_def]
  simp only [Tag.ofName?_name]

theorem ofJson_is (v w : Json) : ofJson (node .is (.array [v, w])) =
    (expectTarget w >>= fun target => ofJson v >>= fun x => .ok (.is x target)) := by
  rw [node, ofJson.eq_def]
  simp only [Tag.ofName?_name]

theorem ofJson_connective (c : Connective) (l r : Json) :
    ofJson (node (.connective c) (.array [l, r])) =
      (ofJson l >>= fun x => ofJson r >>= fun y => .ok (c.join x y)) := by
  rw [node, ofJson.eq_def]
  simp only [Tag.ofName?_name]

theorem ofJson_int (v : Int64) :
    ofJson (.number (.integer v.toInt (Integer.wordRange v))) = .ok (int v) := by
  rw [ofJson.eq_def]
  simp [ofScalar]

theorem expectText_eq_ok {s : String} : expectText key body = .ok s ↔ body = .string s := by
  constructor
  · intro h
    cases body with
    | string t => cases h; rfl
    | _ => cases h
  · rintro rfl
    rfl

theorem expectTarget_eq_ok : expectTarget w = .ok target ↔ w = targetJson target := by
  constructor
  · intro h
    cases w with
    | null => cases h; rfl
    | bool b => cases h; rfl
    | _ => cases h
  · rintro rfl
    cases target <;> rfl

theorem ofDate_eq_ok {s : String} :
    ofDate s = .ok e ↔ ∃ d, Calendar.readDate s.toList = .ok d ∧ e = .leaf (.date d) := by
  rw [ofDate]
  cases Calendar.readDate s.toList with
  | ok d => simp [eq_comm]
  | error f => simp

theorem ofDatetime_eq_ok {s : String} :
    ofDatetime s = .ok e ↔
      ∃ t, Calendar.readDatetime s.toList = .ok t ∧ e = .leaf (.datetime t) := by
  rw [ofDatetime]
  cases Calendar.readDatetime s.toList with
  | ok t => simp [eq_comm]
  | error f => simp

/-- Decoding gives the tree that a value stands for. -/
theorem Encodes.ofJson (h : Encodes v e) : ofJson v = .ok e := by
  induction h with
  | null => rfl
  | bool b => rfl
  | int v => exact ofJson_int v
  | wide hi =>
    rw [Expr.ofJson.eq_def]
    simp [ofScalar, Integer.fit?_of_not_fits hi]
  | float finite => rfl
  | str s => rfl
  | column s =>
    refine (ofJson_column (.string s)).trans ?_
    rw [expectText_eq_ok.mpr rfl, Outcome.map_ok, Column.parse_eq_splitOn]
  | @date s d hd =>
    refine (ofJson_date (.string s)).trans ?_
    rw [expectText_eq_ok.mpr rfl, Outcome.ok_bind]
    exact ofDate_eq_ok.mpr ⟨d, hd, rfl⟩
  | @datetime s t ht =>
    refine (ofJson_datetime (.string s)).trans ?_
    rw [expectText_eq_ok.mpr rfl, Outcome.ok_bind]
    exact ofDatetime_eq_ok.mpr ⟨t, ht, rfl⟩
  | sign hkey hx ih =>
    obtain rfl := mem_signKeys_iff.mp hkey
    refine (ofJson_sign _ _).trans ?_
    rw [ih, Outcome.map_ok]
  | not hx ih =>
    refine (ofJson_not _).trans ?_
    rw [ih, Outcome.map_ok]
  | is target hx ih =>
    refine (ofJson_is _ _).trans ?_
    rw [expectTarget_eq_ok.mpr rfl, Outcome.ok_bind, ih, Outcome.ok_bind]
  | connective hkey hx hy ihx ihy =>
    obtain rfl := mem_connectiveKeys_iff.mp hkey
    refine (ofJson_connective _ _ _).trans ?_
    rw [ihx, Outcome.ok_bind, ihy, Outcome.ok_bind]

theorem encodes_of_ofScalar (h : ofScalar v = .ok e) : Encodes v e := by
  cases v with
  | null => cases h; exact .null
  | bool b => cases h; exact .bool b
  | string s => cases h; exact .str s
  | array items => cases h
  | object members => cases h
  | number n =>
    cases n with
    | real x finite => cases h; exact .float finite
    | integer i inRange =>
      by_cases hi : Integer.Fits i
      · obtain ⟨w, rfl⟩ : ∃ w : Int64, w.toInt = i := ⟨_, Integer.toInt_ofInt hi⟩
        simp only [ofScalar, Integer.fit?_toInt] at h
        cases h
        exact .int w
      · simp only [ofScalar, Integer.fit?_of_not_fits hi] at h
        cases h
        exact .wide hi

/-- Only a value of a tree is decoded, along the calls of the decoder. -/
theorem encodes_of_ofJson (h : ofJson v = .ok e) : Encodes v e := by
  induction v using ofJson.induct generalizing e with
  | case1 key body hkey =>
    rw [ofJson.eq_def] at h
    simp only [hkey] at h
    cases h
  | case2 key body hkey =>
    obtain rfl := ofName?_eq_some_iff.mp hkey
    have h' := (ofJson_column body).symm.trans h
    obtain ⟨s, hs, rfl⟩ := Outcome.map_eq_ok.mp h'
    obtain rfl := expectText_eq_ok.mp hs
    rw [Column.parse_eq_splitOn]
    exact .column s
  | case3 key body hkey =>
    obtain rfl := ofName?_eq_some_iff.mp hkey
    have h' := (ofJson_date body).symm.trans h
    obtain ⟨s, hs, hdate⟩ := Outcome.bind_eq_ok.mp h'
    obtain rfl := expectText_eq_ok.mp hs
    obtain ⟨d, hd, rfl⟩ := ofDate_eq_ok.mp hdate
    exact .date hd
  | case4 key body hkey =>
    obtain rfl := ofName?_eq_some_iff.mp hkey
    have h' := (ofJson_datetime body).symm.trans h
    obtain ⟨s, hs, hdatetime⟩ := Outcome.bind_eq_ok.mp h'
    obtain rfl := expectText_eq_ok.mp hs
    obtain ⟨t, ht, rfl⟩ := ofDatetime_eq_ok.mp hdatetime
    exact .datetime ht
  | case5 key body negative hkey ih =>
    obtain rfl := ofName?_eq_some_iff.mp hkey
    have h' := (ofJson_sign negative body).symm.trans h
    obtain ⟨x, hx, rfl⟩ := Outcome.map_eq_ok.mp h'
    exact .sign (mem_signKeys_iff.mpr rfl) (ih hx)
  | case6 key body hkey ih =>
    obtain rfl := ofName?_eq_some_iff.mp hkey
    have h' := (ofJson_not body).symm.trans h
    obtain ⟨x, hx, rfl⟩ := Outcome.map_eq_ok.mp h'
    exact .not (ih hx)
  | case7 key hkey v w ih =>
    obtain rfl := ofName?_eq_some_iff.mp hkey
    have h' := (ofJson_is v w).symm.trans h
    obtain ⟨target, htarget, hrest⟩ := Outcome.bind_eq_ok.mp h'
    obtain ⟨x, hx, hok⟩ := Outcome.bind_eq_ok.mp hrest
    obtain rfl := expectTarget_eq_ok.mp htarget
    cases hok
    exact .is target (ih hx)
  | case8 key hkey body hbody =>
    rw [ofJson.eq_def] at h
    simp only [hkey] at h
    cases h
  | case9 key c hkey l r ihl ihr =>
    obtain rfl := ofName?_eq_some_iff.mp hkey
    have h' := (ofJson_connective c l r).symm.trans h
    obtain ⟨x, hx, hrest⟩ := Outcome.bind_eq_ok.mp h'
    obtain ⟨y, hy, hok⟩ := Outcome.bind_eq_ok.mp hrest
    cases hok
    exact .connective (mem_connectiveKeys_iff.mpr rfl) (ihl hx) (ihr hy)
  | case10 key c hkey body hbody =>
    rw [ofJson.eq_def] at h
    simp only [hkey] at h
    cases h
  | case11 members hmembers =>
    rw [ofJson.eq_def] at h
    simp only at h
    cases h
  | case12 v hsingle hobject =>
    cases v with
    | object members => exact absurd rfl (hobject members)
    | _ => exact encodes_of_ofScalar h

theorem ofJson_eq_ok_iff : ofJson v = .ok e ↔ Encodes v e :=
  ⟨encodes_of_ofJson, Encodes.ofJson⟩

end Decode

/-- Every float of the tree is finite and every column a dotted name. -/
structure IsEncodable (e : Expr) : Prop where
  finite : ∀ x, float x ∈ e.subtrees → x.isFinite = true
  dotted : ∀ c, column c ∈ e.subtrees → c.IsDotted

/-- The leaf that the value of the leaf is read as. -/
def asWrittenLeaf : Leaf → Leaf
  | .datetime t => .datetime t.asWritten
  | v => v

/-- The tree that the value of the tree is read as. -/
def asWritten (e : Expr) : Expr := e.mapLeaves asWrittenLeaf

/-- The value is the other one or stands where an operand does in it, at any depth. -/
inductive IsOperandOf (u : Json) : Json → Prop where
  | self : IsOperandOf u u
  | sign {key : String} {negative : Bool} {v : Json} (hkey : (key, negative) ∈ signKeys)
      (hu : IsOperandOf u v) : IsOperandOf u (.object [(key, v)])
  | not {v : Json} (hu : IsOperandOf u v) : IsOperandOf u (.object [("not", v)])
  | is {v : Json} (target : Option Bool) (hu : IsOperandOf u v) :
      IsOperandOf u (.object [("is", .array [v, targetJson target])])
  | left {key : String} {c : Connective} {l : Json} (r : Json)
      (hkey : (key, c) ∈ connectiveKeys) (hu : IsOperandOf u l) :
      IsOperandOf u (.object [(key, .array [l, r])])
  | right {key : String} {c : Connective} (l : Json) {r : Json}
      (hkey : (key, c) ∈ connectiveKeys) (hu : IsOperandOf u r) :
      IsOperandOf u (.object [(key, .array [l, r])])

/-- No operand is a date, a datetime or an integer beyond a signed word. -/
structure HasOneForm (v : Json) : Prop where
  noDate : ∀ body, ¬ IsOperandOf (.object [("date", body)]) v
  noDatetime : ∀ body, ¬ IsOperandOf (.object [("datetime", body)]) v
  noWide : ∀ i inRange, IsOperandOf (.number (.integer i inRange)) v → i < 0x8000_0000_0000_0000

section Encode

variable {key : String} {u v w body : Json} {e x l r : Expr}

theorem IsEncodable.operand (h : e.IsEncodable) (hx : x ∈ e.operands) : x.IsEncodable where
  finite y hy := h.finite y (mem_subtrees_of_operand hx hy)
  dotted c hc := h.dotted c (mem_subtrees_of_operand hx hc)

theorem IsOperandOf.of_member (h : IsOperandOf u (.object [(key, body)])) :
    u = .object [(key, body)] ∨ IsOperandOf u body ∨
      ∃ v w, body = .array [v, w] ∧ (IsOperandOf u v ∨ IsOperandOf u w) := by
  cases h with
  | self => exact Or.inl rfl
  | sign hkey hu => exact Or.inr (Or.inl hu)
  | not hu => exact Or.inr (Or.inl hu)
  | is target hu => exact Or.inr (Or.inr ⟨_, _, rfl, Or.inl hu⟩)
  | left r hkey hu => exact Or.inr (Or.inr ⟨_, _, rfl, Or.inl hu⟩)
  | right l hkey hu => exact Or.inr (Or.inr ⟨_, _, rfl, Or.inr hu⟩)

theorem HasOneForm.operand (h : HasOneForm v) (hw : ∀ u, IsOperandOf u w → IsOperandOf u v) :
    HasOneForm w where
  noDate body hbody := h.noDate body (hw _ hbody)
  noDatetime body hbody := h.noDatetime body (hw _ hbody)
  noWide i inRange hi := h.noWide i inRange (hw _ hi)

theorem asWritten_eq_self_iff :
    e.asWritten = e ↔
      ∀ t, .datetime t ∈ e.leaves → Calendar.LeapEndsMinute t.second t.nanos := by
  rw [asWritten, mapLeaves_eq_self_iff]
  constructor
  · intro h t ht
    exact Datetime.asWritten_eq_self_iff.mp (Leaf.datetime.inj (h _ ht))
  · intro h v hv
    cases v with
    | datetime t => exact congrArg _ (Datetime.asWritten_eq_self_iff.mpr (h t hv))
    | _ => rfl

theorem encodes_ofLeaf {a : Leaf} (h : (leaf a).IsEncodable) :
    Encodes (ofLeaf a) (.leaf (asWrittenLeaf a)) := by
  cases a with
  | int v => exact .int v
  | float x =>
    have hfinite : x.isFinite = true := h.finite x (self_mem_subtrees _)
    rw [ofLeaf, dif_pos hfinite]
    exact .float hfinite
  | str s => exact .str s
  | date d =>
    refine .date ?_
    rw [String.toList_ofList]
    exact (Date.readsDay_write d).readDate
  | datetime t =>
    refine .datetime ?_
    rw [String.toList_ofList]
    exact Datetime.readDatetime_write t
  | bool b => exact .bool b
  | null => exact .null
  | column c =>
    have hdotted : c.IsDotted := h.dotted c (self_mem_subtrees _)
    have hcolumn := Encodes.column c.display
    rw [← Column.parse_eq_splitOn, Column.parse_display hdotted] at hcolumn
    exact hcolumn

theorem encodes_join (c : Connective) (hl : Encodes v l) (hr : Encodes w r) :
    Encodes (node (.connective c) (.array [v, w])) (c.join l r) :=
  .connective (mem_connectiveKeys_iff.mpr rfl) hl hr

theorem encodes_toJson (h : e.IsEncodable) : Encodes e.toJson e.asWritten := by
  induction e with
  | leaf a => exact encodes_ofLeaf h
  | sign negative x ih => exact .sign (mem_signKeys_iff.mpr rfl) (ih (h.operand (.head _)))
  | not x ih => exact .not (ih (h.operand (.head _)))
  | is x target ih => exact .is target (ih (h.operand (.head _)))
  | arith op l r ihl ihr =>
    have hl := ihl (h.operand (.head _))
    have hr := ihr (h.operand (.tail _ (.head _)))
    exact encodes_join (.arith op) hl hr
  | logic op l r ihl ihr =>
    have hl := ihl (h.operand (.head _))
    have hr := ihr (h.operand (.tail _ (.head _)))
    exact encodes_join (.logic op) hl hr
  | compare op l r ihl ihr =>
    have hl := ihl (h.operand (.head _))
    have hr := ihr (h.operand (.tail _ (.head _)))
    exact encodes_join (.compare op) hl hr

theorem toJson_join (c : Connective) (l r : Expr) :
    (c.join l r).toJson = node (.connective c) (.array [l.toJson, r.toJson]) := by
  cases c <;> rfl

theorem Encodes.toJson_eq (h : Encodes v e) (hv : HasOneForm v) : e.toJson = v := by
  induction h with
  | null => rfl
  | bool b => rfl
  | int w => rfl
  | @wide i inRange hi =>
    have hlt := hv.noWide i inRange .self
    exact absurd ⟨inRange.1, hlt⟩ hi
  | float finite => exact dif_pos finite
  | str s => rfl
  | column s =>
    rw [← Column.parse_eq_splitOn, toJson, ofLeaf, Column.display_parse]
    rfl
  | date hd => exact absurd .self (hv.noDate _)
  | datetime ht => exact absurd .self (hv.noDatetime _)
  | sign hkey hx ih =>
    rw [toJson, ih (hv.operand fun _ => .sign hkey), mem_signKeys_iff.mp hkey]
    rfl
  | not hx ih =>
    rw [toJson, ih (hv.operand fun _ => .not)]
    rfl
  | is target hx ih =>
    rw [toJson, ih (hv.operand fun _ => .is target)]
    rfl
  | connective hkey hx hy ihx ihy =>
    rw [toJson_join, ihx (hv.operand fun _ => .left _ hkey),
      ihy (hv.operand fun _ => .right _ hkey), mem_connectiveKeys_iff.mp hkey]
    rfl

end Encode

/-- Decoding the value of a tree gives the tree just when all leap seconds in it end a minute.
Any other leap second is read as the next second, and all else comes back.  A value that is
decoded is the value of its tree when no date and no wide integer is in it.  Nothing but a value
of a tree is decoded. -/
theorem ofJson_toJson :
    (∀ e : Expr, e.IsEncodable → (ofJson e.toJson = .ok e ↔
        ∀ t, .datetime t ∈ e.leaves → Calendar.LeapEndsMinute t.second t.nanos)) ∧
      (∀ e : Expr, e.IsEncodable → ofJson e.toJson = .ok e.asWritten) ∧
      (∀ v e, ofJson v = .ok e → HasOneForm v → e.toJson = v) ∧
      ∀ v e, ofJson v = .ok e ↔ Encodes v e := by
  refine ⟨?_, ?_, ?_, fun v e => ofJson_eq_ok_iff⟩
  · intro e he
    rw [(encodes_toJson he).ofJson, Except.ok.injEq, asWritten_eq_self_iff]
  · intro e he
    exact (encodes_toJson he).ofJson
  · intro v e h hv
    exact (encodes_of_ofJson h).toJson_eq hv

/-- A day of a year before zero and a leap second of a year beyond 9999 are read back, and the
value of a negated column is the value it was read from. -/
theorem ofJson_toJson_nested :
    ofJson (.object [("is", .array [.object [("lt", .array [
        .object [("date", .string "-0044-03-15")],
        .object [("datetime", .string "+12345-12-31 23:59:60.000001")]])], .null])]) =
      .ok (.is (.compare .lt (.leaf (.date ⟨-44, 3, 15, by decide⟩))
        (.leaf (.datetime ⟨⟨12345, 12, 31, by decide⟩, 23, 59, 59, 1000001000, by decide⟩)))
        none) ∧
    HasOneForm (.object [("not", .object [("column", .string "t.a")])]) ∧
    toJson (.not (column ⟨["t", "a"]⟩)) =
      .object [("not", .object [("column", .string "t.a")])] := by
  have hmem : ∀ u, IsOperandOf u (.object [("not", .object [("column", .string "t.a")])]) →
      u ∈ [.object [("not", .object [("column", .string "t.a")])],
        .object [("column", .string "t.a")], .string "t.a"] := by
    intro u hu
    obtain rfl | hu | ⟨v, w, heq, -⟩ := hu.of_member
    · simp
    · obtain rfl | hu | ⟨v, w, heq, -⟩ := hu.of_member
      · simp
      · cases hu
        simp
      · cases heq
    · cases heq
  have hform : HasOneForm (.object [("not", .object [("column", .string "t.a")])]) := by
    constructor
    · intro body hbody
      simpa using hmem _ hbody
    · intro body hbody
      simpa using hmem _ hbody
    · intro i inRange hi
      simpa using hmem _ hi
  refine ⟨?_, hform, ?_⟩
  · refine (congrArg ofJson ?_).trans
      ((ofJson_toJson.1 _ ⟨fun x hx => ?_, fun c hc => ?_⟩).mpr fun t ht => ?_)
    · rfl
    · simp [subtrees] at hx
    · simp [subtrees] at hc
    · simp only [leaves, List.cons_append, List.nil_append, List.mem_cons, List.not_mem_nil,
        Leaf.datetime.injEq, reduceCtorEq, or_false, false_or] at ht
      rw [ht]
      decide
  · refine ofJson_toJson.2.2.1 _ _ ?_ hform
    rfl

/-- A leap second behind second 4 is written as second 5, and that is what is read. -/
theorem ofJson_toJson_next_second :
    (leaf (.datetime ⟨⟨2024, 1, 1, by decide⟩, 23, 56, 4, 1333333333, by decide⟩)).IsEncodable ∧
      toJson (leaf (.datetime ⟨⟨2024, 1, 1, by decide⟩, 23, 56, 4, 1333333333, by decide⟩)) =
        .object [("datetime", .string "2024-01-01 23:56:05.333333333")] ∧
      ofJson (.object [("datetime", .string "2024-01-01 23:56:05.333333333")]) =
        .ok (leaf (.datetime ⟨⟨2024, 1, 1, by decide⟩, 23, 56, 5, 333333333, by decide⟩)) ∧
      ¬ ∀ e : Expr, e.IsEncodable → ofJson e.toJson = .ok e := by
  have hencodable : (leaf (.datetime ⟨⟨2024, 1, 1, by decide⟩, 23, 56, 4, 1333333333,
      by decide⟩)).IsEncodable :=
    ⟨fun x hx => by simp [subtrees] at hx, fun c hc => by simp [subtrees] at hc⟩
  refine ⟨hencodable, rfl, rfl, fun h => ?_⟩
  have hread : ofJson (.object [("datetime", .string "2024-01-01 23:56:05.333333333")]) =
      .ok (leaf (.datetime ⟨⟨2024, 1, 1, by decide⟩, 23, 56, 4, 1333333333, by decide⟩)) :=
    h _ hencodable
  cases hread

end Expr
end QueryExpr
