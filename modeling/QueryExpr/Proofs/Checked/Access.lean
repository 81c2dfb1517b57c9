/-
Access to a text by bytes, with every access checked.

An index has to be in range, a slice of a text has to begin and to end between two of its
characters, and a number has to fit its word.  Where one of these fails there is a fault and
no value.
-/
import QueryExpr.Proofs.Outcome
import QueryExpr.Proofs.Text.Encoded

namespace QueryExpr

/-- Why an access gives no value. -/
inductive Checked.Fault where
  | outOfRange
  | reversed
  | insideCharacter
  | overflow
  /-- A cursor was told to move by no characters. -/
  | zeroCount
  /-- A cursor moved by other than the bytes that were matched. -/
  | strayed
  /-- A loop was left before its end. -/
  | unfinished
  deriving DecidableEq

abbrev Checked (α : Type) := Except Checked.Fault α

namespace Checked

open Text

def byteAt (i : Nat) (bytes : List UInt8) : Checked UInt8 :=
  match bytes[i]? with
  | some b => .ok b
  | none => .error .outOfRange

/-- The bytes from `i` up to `j`. -/
def bytesBetween (i j : Nat) (bytes : List UInt8) : Checked (List UInt8) :=
  if j < i then .error .reversed
  else if bytes.length < j then .error .outOfRange
  else .ok ((bytes.drop i).take (j - i))

/-- The offset lies between two characters, or at an end of the text. -/
def isBoundary : Nat → List Char → Bool
  | 0, _ => true
  | _, [] => false
  | n, c :: rest => c.utf8Size ≤ n && isBoundary (n - c.utf8Size) rest

/-- The text from the byte offset `i` up to the byte offset `j`. -/
def textBetween (i j : Nat) (text : List Char) : Checked (List Char) :=
  if j < i then .error .reversed
  else if Text.byteSize text < j then .error .outOfRange
  else if isBoundary i text && isBoundary j text then .ok (Text.slice i j text)
  else .error .insideCharacter

def textFrom (i : Nat) (text : List Char) : Checked (List Char) :=
  textBetween i (Text.byteSize text) text

def textTo (j : Nat) (text : List Char) : Checked (List Char) := textBetween 0 j text

/-- The number as an unsigned word of 32 bits. -/
def word32 (n : Nat) : Checked Nat := if n < 0x100000000 then .ok n else .error .overflow

def minus (m n : Nat) : Checked Nat := if n ≤ m then .ok (m - n) else .error .overflow

/-- All of the conditions hold.  The first one that does not hold ends the question. -/
def allOf : List (Checked Bool) → Checked Bool
  | [] => .ok true
  | condition :: conditions => do if ← condition then allOf conditions else .ok false

/-- The byte at `i` is of the class. -/
def holdsAt (q : UInt8 → Bool) (i : Nat) (bytes : List UInt8) : Checked Bool := do
  let b ← byteAt i bytes
  .ok (q b)

/-- The bytes from `i` up to `j` are of the class. -/
def allBetween (q : UInt8 → Bool) (i j : Nat) (bytes : List UInt8) : Checked Bool := do
  let bs ← bytesBetween i j bytes
  .ok (bs.all q)

variable {text rest run : List Char} {c : Char} {i j width : Nat} {bytes : List UInt8}

theorem byteAt_eq_ok_iff {b : UInt8} : byteAt i bytes = .ok b ↔ bytes[i]? = some b := by
  unfold byteAt
  split
  · rename_i h
    rw [h, Except.ok.injEq, Option.some.injEq]
  · rename_i h
    rw [h]
    exact ⟨nofun, nofun⟩

theorem exists_holdsAt (q : UInt8 → Bool) (h : i < bytes.length) :
    ∃ v, holdsAt q i bytes = .ok v := by
  rw [holdsAt, byteAt_eq_ok_iff.mpr (List.getElem?_eq_getElem h)]
  exact ⟨_, rfl⟩

theorem exists_allBetween (q : UInt8 → Bool) (hij : i ≤ j) (h : j ≤ bytes.length) :
    ∃ v, allBetween q i j bytes = .ok v := by
  rw [allBetween, bytesBetween, if_neg (by omega), if_neg (by omega)]
  exact ⟨_, rfl⟩

theorem allOf_eq_ok_true {conditions : List (Checked Bool)} :
    allOf conditions = .ok true ↔ ∀ x ∈ conditions, x = .ok true := by
  induction conditions with
  | nil => exact ⟨fun _ => nofun, fun _ => rfl⟩
  | cons x conditions ih =>
    rw [allOf, List.forall_mem_cons, ← ih]
    cases x with
    | error e => exact ⟨nofun, fun h => nomatch h.1⟩
    | ok v =>
      cases v with
      | false => exact ⟨nofun, fun h => nomatch h.1⟩
      | true => exact ⟨fun h => ⟨rfl, h⟩, fun h => h.2⟩

theorem exists_allOf {conditions : List (Checked Bool)}
    (h : ∀ x ∈ conditions, ∃ v, x = .ok v) : ∃ v, allOf conditions = .ok v := by
  induction conditions with
  | nil => exact ⟨true, rfl⟩
  | cons x conditions ih =>
    obtain ⟨⟨v, rfl⟩, hrest⟩ := List.forall_mem_cons.mp h
    cases v with
    | false => exact ⟨false, rfl⟩
    | true => exact ih hrest

theorem isBoundary_iff :
    isBoundary i text = true ↔ ∃ front rest, text = front ++ rest ∧ byteSize front = i := by
  fun_induction isBoundary i text with
  | case1 text => exact ⟨fun _ => ⟨[], text, rfl, rfl⟩, fun _ => rfl⟩
  | case2 n hn =>
    refine ⟨nofun, ?_⟩
    rintro ⟨front, rest, hnil, hsize⟩
    obtain ⟨rfl, rfl⟩ := List.append_eq_nil_iff.mp hnil.symm
    exact absurd hsize.symm hn
  | case3 n c rest hn ih =>
    rw [Bool.and_eq_true, ih, decide_eq_true_eq]
    clear ih
    constructor
    · rintro ⟨hle, front, after, rfl, hsize⟩
      exact ⟨c :: front, after, rfl, by rw [byteSize_cons, hsize]; omega⟩
    · rintro ⟨front, after, htext, hsize⟩
      cases front with
      | nil => exact absurd hsize.symm hn
      | cons d front =>
        obtain ⟨rfl, rfl⟩ := List.cons.inj htext
        rw [byteSize_cons] at hsize
        have hrest : byteSize front = n - c.utf8Size := by omega
        exact ⟨by omega, front, after, rfl, hrest⟩

/-- The text behind the first `i` bytes is `rest`. -/
def IsRest (text : List Char) (i : Nat) (rest : List Char) : Prop :=
  ∃ front, text = front ++ rest ∧ byteSize front = i

theorem isRest_zero (text : List Char) : IsRest text 0 text := ⟨[], rfl, rfl⟩

namespace IsRest

variable {q : UInt8 → Bool} {p : Char → Bool}

theorem append (h : IsRest text i (run ++ rest)) : IsRest text (i + byteSize run) rest := by
  obtain ⟨front, rfl, rfl⟩ := h
  exact ⟨front ++ run, (List.append_assoc front run rest).symm, byteSize_append front run⟩

theorem cons (h : IsRest text i (c :: rest)) : IsRest text (i + c.utf8Size) rest := by
  rw [← List.singleton_append] at h
  exact h.append

theorem number (h : IsRest text i (run ++ rest)) (hrun : IsNumber width run) :
    IsRest text (i + width) rest := hrun.byteSize_eq ▸ h.append

theorem ascii (h : IsRest text i (c :: rest)) (hc : c.toNat < 128) : IsRest text (i + 1) rest :=
  utf8Size_of_ascii hc ▸ h.cons

theorem byteSize_eq (h : IsRest text i rest) : byteSize text = i + byteSize rest := by
  obtain ⟨front, rfl, rfl⟩ := h
  exact byteSize_append front rest

theorem drop_encoded (h : IsRest text i rest) : (encoded text).drop i = encoded rest := by
  obtain ⟨front, rfl, rfl⟩ := h
  rw [encoded_append, ← length_encoded, List.drop_left]

theorem getElem?_encoded (h : IsRest text i rest) :
    (encoded text)[i]? = (encoded rest).head? := by
  rw [List.head?_eq_getElem?, ← h.drop_encoded, List.getElem?_drop, Nat.add_zero]

theorem bytesBetween_of_le (h : IsRest text i rest) (hwidth : width ≤ byteSize rest) :
    bytesBetween i (i + width) (encoded text) = .ok ((encoded rest).take width) := by
  have hsize := h.byteSize_eq
  rw [bytesBetween, if_neg (by omega), if_neg (by rw [length_encoded]; omega), h.drop_encoded,
    Nat.add_sub_cancel_left]

theorem bytesBetween_append (h : IsRest text i (run ++ rest)) :
    bytesBetween i (i + byteSize run) (encoded text) = .ok (encoded run) := by
  rw [h.bytesBetween_of_le (by rw [byteSize_append]; omega), encoded_append,
    ← length_encoded run, List.take_left]

theorem textBetween_append (h : IsRest text i (run ++ rest)) :
    textBetween i (i + byteSize run) text = .ok run := by
  have hsize := h.byteSize_eq
  rw [byteSize_append] at hsize
  obtain ⟨front, rfl, rfl⟩ := h
  have hstart : isBoundary (byteSize front) (front ++ (run ++ rest)) = true :=
    isBoundary_iff.mpr ⟨front, run ++ rest, rfl, rfl⟩
  have hstop : isBoundary (byteSize front + byteSize run) (front ++ (run ++ rest)) = true :=
    isBoundary_iff.mpr ⟨front ++ run, rest, by rw [List.append_assoc], byteSize_append _ _⟩
  rw [textBetween, if_neg (by omega), if_neg (by omega), if_pos (by rw [hstart, hstop]; rfl),
    slice_append]

theorem textFrom_eq (h : IsRest text i rest) : textFrom i text = .ok rest := by
  have hsize := h.byteSize_eq
  rw [← List.append_nil rest] at h
  rw [textFrom, hsize, h.textBetween_append]

theorem holdsAt_eq_ok_true (h : IsRest text i rest) (hclass : SameClass q p) :
    holdsAt q i (encoded text) = .ok true ↔ ∃ c after, rest = c :: after ∧ p c = true := by
  have hhead := hclass.any_head? rest
  rw [holdsAt, Outcome.bind_eq_ok]
  simp only [byteAt_eq_ok_iff, h.getElem?_encoded, Except.ok.injEq]
  rw [← Option.any_eq_true, hhead, Option.any_eq_true]
  simp only [List.head?_eq_some_iff]
  exact ⟨fun ⟨c, ⟨after, hrest⟩, hp⟩ => ⟨c, after, hrest, hp⟩,
    fun ⟨c, after, hrest, hp⟩ => ⟨c, ⟨after, hrest⟩, hp⟩⟩

theorem holdsAt_byte (h : IsRest text i rest) (hc : c.toNat < 128) :
    holdsAt (· == byte c) i (encoded text) = .ok true ↔ ∃ after, rest = c :: after := by
  rw [h.holdsAt_eq_ok_true (.single hc)]
  simp only [beq_iff_eq]
  exact ⟨fun ⟨_, after, hrest, hd⟩ => ⟨after, hd ▸ hrest⟩,
    fun ⟨after, hrest⟩ => ⟨c, after, hrest, rfl⟩⟩

theorem allBetween_digits (h : IsRest text i rest) (width : Nat) :
    allBetween isDigitByte i (i + width) (encoded text) = .ok true ↔
      ∃ ds after, rest = ds ++ after ∧ IsNumber width ds := by
  have hsize := h.byteSize_eq
  by_cases hwidth : width ≤ byteSize rest
  · rw [allBetween, h.bytesBetween_of_le hwidth, Outcome.ok_bind, Except.ok.injEq,
      SameClass.isDigit.all_take_encoded hwidth]
    exact ⟨fun ⟨ds, after, hrest, hlength, hds⟩ => ⟨ds, after, hrest, hlength, hds⟩,
      fun ⟨ds, after, hrest, hds⟩ => ⟨ds, after, hrest, hds.length_eq, hds.allDigits⟩⟩
  · have hfault : bytesBetween i (i + width) (encoded text) = .error .outOfRange := by
      rw [bytesBetween, if_neg (by omega), if_pos (by rw [length_encoded]; omega)]
    rw [allBetween, hfault]
    refine ⟨nofun, ?_⟩
    rintro ⟨ds, after, rfl, hds⟩
    rw [byteSize_append, hds.byteSize_eq] at hwidth
    omega

end IsRest

theorem textTo_append (front rest : List Char) :
    textTo (byteSize front) (front ++ rest) = .ok front := by
  have h := (isRest_zero (front ++ rest)).textBetween_append
  rwa [Nat.zero_add] at h

end Checked
end QueryExpr
