/-
Dotted names and their parts.

Cutting a text at its dots and joining parts with dots undo each other, the latter for parts
that have no dot of their own.  No parts at all have no text, since a text always has a part.
-/
import QueryExpr.Column

namespace QueryExpr
namespace Column

theorem splitDots_eq_splitOn (text : List Char) : splitDots text = text.splitOn '.' := by
  induction text with
  | nil => rfl
  | cons c text ih =>
    rw [splitDots, ih, List.splitOn_cons_eq_if_modifyHead]
    by_cases hdot : c = '.'
    · rw [if_pos hdot, if_pos (by simpa using hdot)]
    · rw [if_neg hdot, if_neg (by simpa using hdot)]
      cases hparts : text.splitOn '.' with
      | nil => exact absurd hparts (List.splitOn_ne_nil '.' text)
      | cons part parts => rfl

theorem parse_eq_splitOn (s : String) :
    parse s = ⟨(s.toList.splitOn '.').map String.ofList⟩ := by
  rw [parse, splitDots_eq_splitOn]

/-- A character that is no dot goes to the first part. -/
theorem splitDots_cons_of_ne {c : Char} (h : c ≠ '.') (text : List Char) :
    ∃ part parts, splitDots text = part :: parts ∧
      splitDots (c :: text) = (c :: part) :: parts := by
  cases hparts : splitDots text with
  | nil =>
    rw [splitDots_eq_splitOn] at hparts
    exact absurd hparts (List.splitOn_ne_nil '.' text)
  | cons part parts =>
    refine ⟨part, parts, rfl, ?_⟩
    rw [splitDots, if_neg h, hparts]

theorem length_splitDots (text : List Char) : (splitDots text).length = text.count '.' + 1 := by
  induction text with
  | nil => rfl
  | cons c text ih =>
    by_cases hdot : c = '.'
    · rw [splitDots, if_pos hdot, hdot, List.count_cons_self, List.length_cons, ih]
    · obtain ⟨part, parts, htext, hcons⟩ := splitDots_cons_of_ne hdot text
      rw [hcons, List.count_cons_of_ne hdot, ← ih, htext, List.length_cons, List.length_cons]

theorem dot_not_mem_splitDots (text : List Char) : ∀ part ∈ splitDots text, '.' ∉ part := by
  induction text with
  | nil => simp [splitDots]
  | cons c text ih =>
    by_cases hdot : c = '.'
    · rw [splitDots, if_pos hdot]
      exact List.forall_mem_cons.mpr ⟨List.not_mem_nil, ih⟩
    · obtain ⟨part, parts, htext, hcons⟩ := splitDots_cons_of_ne hdot text
      rw [htext] at ih
      obtain ⟨hpart, hparts⟩ := List.forall_mem_cons.mp ih
      rw [hcons]
      have hfirst : '.' ∉ c :: part := List.not_mem_cons_of_ne_of_not_mem (Ne.symm hdot) hpart
      exact List.forall_mem_cons.mpr ⟨hfirst, hparts⟩

/-- A name with parts, none of which has a dot. -/
def IsDotted (c : Column) : Prop := c.parts ≠ [] ∧ ∀ part ∈ c.parts, '.' ∉ part.toList

theorem display_parse (s : String) : (parse s).display = s := by
  have hid : String.toList ∘ String.ofList = id := funext fun _ => String.toList_ofList
  have hwrite : (parse s).write = s.toList := by
    rw [parse_eq_splitOn, write, List.map_map, hid, List.map_id, List.intercalate_splitOn]
  rw [display, hwrite, String.ofList_toList]

theorem parse_display {c : Column} (h : c.IsDotted) : parse c.display = c := by
  have hparts : c.write.splitOn '.' = c.parts.map String.toList := by
    rw [write, List.splitOn_intercalate]
    · intro part hpart
      obtain ⟨s, hs, rfl⟩ := List.mem_map.mp hpart
      exact h.2 s hs
    · simpa using h.1
  have hid : String.ofList ∘ String.toList = id := funext fun _ => String.ofList_toList
  rw [parse_eq_splitOn, display, String.toList_ofList, hparts, List.map_map, hid, List.map_id]

theorem not_mem_write {c : Column} {x : Char} (hdot : x ≠ '.')
    (h : ∀ part ∈ c.parts, x ∉ part.toList) : x ∉ c.write := by
  obtain ⟨parts⟩ := c
  rw [write]
  induction parts with
  | nil => exact List.not_mem_nil
  | cons part parts ih =>
    obtain ⟨hpart, hparts⟩ := List.forall_mem_cons.mp h
    cases parts with
    | nil => simpa [List.intercalate_singleton] using hpart
    | cons next parts =>
      rw [List.map_cons, List.map_cons, List.intercalate_cons_cons]
      have hrest := ih hparts
      rw [List.map_cons] at hrest
      simp [hpart, hdot, hrest]

theorem length_parts_parse (s : String) :
    (parse s).parts.length = s.toList.count '.' + 1 := by
  rw [parse, List.length_map, length_splitDots]

theorem isDotted_parse (s : String) : (parse s).IsDotted := by
  constructor
  · exact List.ne_nil_of_length_eq_add_one (length_parts_parse s)
  · intro part hpart
    obtain ⟨chars, hchars, rfl⟩ := List.mem_map.mp hpart
    rw [String.toList_ofList]
    exact dot_not_mem_splitDots s.toList chars hchars

/-- A text comes back from the name that it is read as, which has a part more than the text has
dots.  A name comes back from its text just when it has parts and no part has a dot. -/
theorem parse_display_inverse :
    (∀ s : String, (parse s).display = s ∧
        (parse s).parts.length = s.toList.count '.' + 1 ∧
        ∀ part ∈ (parse s).parts, '.' ∉ part.toList) ∧
      ∀ c : Column, parse c.display = c ↔
        c.parts ≠ [] ∧ ∀ part ∈ c.parts, '.' ∉ part.toList := by
  constructor
  · intro s
    exact ⟨display_parse s, length_parts_parse s, (isDotted_parse s).2⟩
  · intro c
    constructor
    · intro h
      rw [← h]
      exact isDotted_parse c.display
    · exact parse_display

example : (parse ".a..").parts = ["", "a", "", ""] ∧ parse (display ⟨[]⟩) = ⟨[""]⟩ := by decide

end Column
end QueryExpr
