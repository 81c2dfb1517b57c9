/-
Byte counts and cuts.

Offsets in a text count the bytes of its UTF-8 form, while the text itself is
handled one character at a time.  `takeBytes` and `dropBytes` cut at an offset,
and `slice` is the text between two of them.
-/

namespace QueryExpr
namespace Text

/-- The number of bytes that the characters take in UTF-8. -/
def byteSize : List Char → Nat
  | [] => 0
  | c :: rest => c.utf8Size + byteSize rest

@[simp] theorem byteSize_nil : byteSize [] = 0 := rfl

@[simp] theorem byteSize_cons (c : Char) (rest : List Char) :
    byteSize (c :: rest) = c.utf8Size + byteSize rest := rfl

@[simp] theorem byteSize_append (a b : List Char) :
    byteSize (a ++ b) = byteSize a + byteSize b := by
  induction a with
  | nil => simp
  | cons c rest ih => simp [ih, Nat.add_assoc]

/-- Every character takes at least one byte. -/
theorem length_le_byteSize (text : List Char) : text.length ≤ byteSize text := by
  induction text with
  | nil => exact Nat.le_refl 0
  | cons c rest ih =>
    have := c.utf8Size_pos
    simp only [List.length_cons, byteSize_cons]
    omega

/-- The characters that lie within the first `n` bytes. -/
def takeBytes : Nat → List Char → List Char
  | _, [] => []
  | n, c :: rest => if c.utf8Size ≤ n then c :: takeBytes (n - c.utf8Size) rest else []

/-- What is left after the characters that begin within the first `n` bytes. -/
def dropBytes : Nat → List Char → List Char
  | _, [] => []
  | n, c :: rest => if n = 0 then c :: rest else dropBytes (n - c.utf8Size) rest

/-- The text from the byte offset `start` up to the byte offset `stop`. -/
def slice (start stop : Nat) (text : List Char) : List Char :=
  takeBytes (stop - start) (dropBytes start text)

theorem takeBytes_zero (text : List Char) : takeBytes 0 text = [] := by
  cases text with
  | nil => rfl
  | cons c rest =>
    have := c.utf8Size_pos
    simp only [takeBytes, Nat.le_zero_eq]
    rw [if_neg (by omega)]

theorem takeBytes_append (a b : List Char) : takeBytes (byteSize a) (a ++ b) = a := by
  induction a with
  | nil => exact takeBytes_zero b
  | cons c rest ih => simp [takeBytes, ih]

theorem dropBytes_append (a b : List Char) : dropBytes (byteSize a) (a ++ b) = b := by
  induction a with
  | nil => cases b <;> simp [dropBytes]
  | cons c rest ih =>
    have := c.utf8Size_pos
    simp only [List.cons_append, dropBytes, byteSize_cons]
    rw [if_neg (by omega), Nat.add_sub_cancel_left, ih]

/-- A slice whose ends are the byte sizes of two initial parts is what lies between them. -/
theorem slice_append (a b c : List Char) :
    slice (byteSize a) (byteSize a + byteSize b) (a ++ (b ++ c)) = b := by
  rw [slice, dropBytes_append, Nat.add_sub_cancel_left, takeBytes_append]

/-- The bytes of a text.  Lists of bytes compare from the first difference on. -/
def bytes (s : String) : List UInt8 := s.toUTF8.data.toList

end Text
end QueryExpr
