/-
The UTF-8 form of a text.

The bytes of ASCII stand in the form only for the characters that they are, and every byte of
any other character lies outside of ASCII.  A class of bytes of ASCII is therefore found in the
form where the class of these characters is found in the text.
-/
import QueryExpr.Proofs.Text.Runs
import QueryExpr.Text.Bytes

namespace QueryExpr

namespace Text

/-- The UTF-8 form of a text. -/
def encoded (text : List Char) : List UInt8 := text.flatMap String.utf8EncodeChar

/-- The byte of a character of ASCII. -/
def byte (c : Char) : UInt8 := UInt8.ofNat c.toNat

variable {c : Char} {text : List Char}

theorem bytes_eq_encoded (s : String) : bytes s = encoded s.toList := by
  have hform : s.toUTF8 = (encoded s.toList).toByteArray := by
    rw [← String.ofList_toList (s := s), String.toList_ofList]
    rfl
  rw [bytes, hform, List.toList_data_toByteArray]

@[simp] theorem encoded_nil : encoded [] = [] := rfl

@[simp] theorem encoded_cons (c : Char) (rest : List Char) :
    encoded (c :: rest) = String.utf8EncodeChar c ++ encoded rest := List.flatMap_cons

@[simp] theorem encoded_append (a b : List Char) : encoded (a ++ b) = encoded a ++ encoded b :=
  List.flatMap_append

@[simp] theorem length_encoded (text : List Char) : (encoded text).length = byteSize text := by
  induction text with
  | nil => rfl
  | cons c rest ih =>
    rw [encoded_cons, List.length_append, String.length_utf8EncodeChar, ih, byteSize_cons]

theorem byteSize_eq_zero : byteSize text = 0 ↔ text = [] := by
  cases text with
  | nil => simp
  | cons c rest =>
    have := c.utf8Size_pos
    simp only [byteSize_cons, reduceCtorEq, iff_false]
    omega

theorem encodeChar_of_ascii (h : c.toNat < 128) : String.utf8EncodeChar c = [byte c] := by
  have hval : c.val.toNat ≤ 0x7f := Nat.le_of_lt_succ h
  rw [String.utf8EncodeChar]
  exact if_pos hval

theorem utf8Size_of_ascii (h : c.toNat < 128) : c.utf8Size = 1 := by
  rw [← String.length_utf8EncodeChar, encodeChar_of_ascii h, List.length_singleton]

theorem encoded_cons_of_ascii (h : c.toNat < 128) (rest : List Char) :
    encoded (c :: rest) = byte c :: encoded rest := by
  rw [encoded_cons, encodeChar_of_ascii h, List.singleton_append]

/-- The bytes of a character outside of ASCII are outside of ASCII, all of them. -/
theorem le_of_mem_encodeChar (h : 128 ≤ c.toNat) :
    ∀ b ∈ String.utf8EncodeChar c, 128 ≤ b.toNat := by
  have hval : 0x7f < c.val.toNat := h
  intro b hb
  unfold String.utf8EncodeChar at hb
  dsimp only at hb
  rw [if_neg (by omega)] at hb
  split at hb
  · simp only [List.mem_cons, List.not_mem_nil, or_false] at hb
    rcases hb with rfl | rfl <;> rw [UInt8.toNat_ofNat'] <;> omega
  · split at hb
    · simp only [List.mem_cons, List.not_mem_nil, or_false] at hb
      rcases hb with rfl | rfl | rfl <;> rw [UInt8.toNat_ofNat'] <;> omega
    · simp only [List.mem_cons, List.not_mem_nil, or_false] at hb
      rcases hb with rfl | rfl | rfl | rfl <;> rw [UInt8.toNat_ofNat'] <;> omega

/-- A class of bytes and a class of characters that have the same members, all of them of
ASCII. -/
structure SameClass (q : UInt8 → Bool) (p : Char → Bool) : Prop where
  ascii : ∀ c : Char, c.toNat < 128 → q (byte c) = p c
  bytes : ∀ b : UInt8, q b = true → b.toNat < 128
  chars : ∀ c : Char, p c = true → c.toNat < 128

def isDigitByte (b : UInt8) : Bool := 48 ≤ b.toNat && b.toNat ≤ 57

def isLetterByte (b : UInt8) : Bool :=
  (65 ≤ b.toNat && b.toNat ≤ 90) || (97 ≤ b.toNat && b.toNat ≤ 122)

def isWordStartByte (b : UInt8) : Bool := isLetterByte b || b == byte '_'

def isWordPartByte (b : UInt8) : Bool := (isLetterByte b || isDigitByte b) || b == byte '_'

theorem toNat_byte (h : c.toNat < 128) : (byte c).toNat = c.toNat := by
  rw [byte, UInt8.toNat_ofNat']
  omega

namespace SameClass

/-- Characters of ASCII are the first 128, so a comparison of those settles what the classes
have of them. -/
theorem of_forall {q : UInt8 → Bool} {p : Char → Bool}
    (hascii : ∀ n < 128, q (UInt8.ofNat n) = p (Char.ofNat n))
    (hbytes : ∀ b : UInt8, q b = true → b.toNat < 128)
    (hchars : ∀ c : Char, p c = true → c.toNat < 128) : SameClass q p := by
  refine ⟨fun c hc => ?_, hbytes, hchars⟩
  have h := hascii c.toNat hc
  rwa [Char.ofNat_toNat] at h

theorem single (hc : c.toNat < 128) : SameClass (· == byte c) (· == c) := by
  refine ⟨fun d hd => ?_, fun b hb => ?_, fun d hd => ?_⟩
  · rw [Bool.eq_iff_iff, beq_iff_eq, beq_iff_eq]
    constructor
    · intro h
      have hnat : d.toNat = c.toNat := by rw [← toNat_byte hd, h, toNat_byte hc]
      exact Char.ext (UInt32.toNat_inj.mp hnat)
    · rintro rfl
      rfl
  · rw [beq_iff_eq.mp hb, toNat_byte hc]
    exact hc
  · rwa [beq_iff_eq.mp hd]

theorem or {q q' : UInt8 → Bool} {p p' : Char → Bool} (h : SameClass q p)
    (h' : SameClass q' p') : SameClass (fun b => q b || q' b) fun c => p c || p' c := by
  refine ⟨fun c hc => ?_, fun b hb => ?_, fun c hc => ?_⟩
  · rw [h.ascii c hc, h'.ascii c hc]
  · exact (Bool.or_eq_true_iff.mp hb).elim (h.bytes b) (h'.bytes b)
  · exact (Bool.or_eq_true_iff.mp hc).elim (h.chars c) (h'.chars c)

theorem isDigit : SameClass isDigitByte Char.isDigit := by
  refine of_forall (by decide) (fun b hb => ?_) fun c hc => ?_
  · simp only [isDigitByte, Bool.and_eq_true, decide_eq_true_eq] at hb
    omega
  · have := toNat_of_isDigit hc
    omega

theorem isAlpha : SameClass isLetterByte Char.isAlpha := by
  refine of_forall (by decide) (fun b hb => ?_) fun c hc => ?_
  · simp only [isLetterByte, Bool.or_eq_true, Bool.and_eq_true, decide_eq_true_eq] at hb
    omega
  · have := toNat_of_isWordStart (Bool.or_eq_true_iff.mpr (Or.inl hc))
    omega

theorem isWordStart : SameClass isWordStartByte Text.isWordStart := isAlpha.or (single (by decide))

theorem isWordPart : SameClass isWordPartByte Text.isWordPart :=
  (isAlpha.or isDigit).or (single (by decide))

variable {q : UInt8 → Bool} {p : Char → Bool}

/-- A byte of a character outside of ASCII is in no such class, and neither is the
character. -/
theorem eq_false_of_le (h : SameClass q p) (hc : 128 ≤ c.toNat) :
    p c = false ∧ ∀ b ∈ String.utf8EncodeChar c, q b = false := by
  refine ⟨Bool.eq_false_iff.mpr fun hp => ?_, fun b hb => Bool.eq_false_iff.mpr fun hq => ?_⟩
  · have := h.chars c hp
    omega
  · have := h.bytes b hq
    have := le_of_mem_encodeChar hc b hb
    omega

theorem exists_head_of_le (h : SameClass q p) (hc : 128 ≤ c.toNat) :
    ∃ b bs, String.utf8EncodeChar c = b :: bs ∧ q b = false := by
  obtain ⟨b, bs, hbytes⟩ := List.exists_cons_of_ne_nil (String.utf8EncodeChar_ne_nil (c := c))
  exact ⟨b, bs, hbytes, (h.eq_false_of_le hc).2 b (hbytes ▸ List.mem_cons_self)⟩

theorem any_head? (h : SameClass q p) (text : List Char) :
    (encoded text).head?.any q = text.head?.any p := by
  cases text with
  | nil => rfl
  | cons c rest =>
    rcases Nat.lt_or_ge c.toNat 128 with hc | hc
    · rw [encoded_cons_of_ascii hc]
      exact h.ascii c hc
    · obtain ⟨b, bs, hbytes, hb⟩ := h.exists_head_of_le hc
      rw [encoded_cons, hbytes]
      exact hb.trans (h.eq_false_of_le hc).1.symm

theorem takeWhile_encoded (h : SameClass q p) (text : List Char) :
    (encoded text).takeWhile q = encoded (text.takeWhile p) := by
  induction text with
  | nil => rfl
  | cons c rest ih =>
    rcases Nat.lt_or_ge c.toNat 128 with hc | hc
    · rw [encoded_cons_of_ascii hc]
      by_cases hp : p c = true
      · rw [List.takeWhile_cons_of_pos hp, List.takeWhile_cons_of_pos (h.ascii c hc ▸ hp), ih,
          encoded_cons_of_ascii hc]
      · rw [List.takeWhile_cons_of_neg hp, List.takeWhile_cons_of_neg (h.ascii c hc ▸ hp)]
        rfl
    · obtain ⟨b, bs, hbytes, hb⟩ := h.exists_head_of_le hc
      rw [encoded_cons, hbytes, List.cons_append,
        List.takeWhile_cons_of_neg (Bool.eq_false_iff.mp hb),
        List.takeWhile_cons_of_neg (Bool.eq_false_iff.mp (h.eq_false_of_le hc).1)]
      rfl

/-- A text of the class has one byte for each character. -/
theorem byteSize_eq (h : SameClass q p) (htext : ∀ c ∈ text, p c = true) :
    byteSize text = text.length := by
  induction text with
  | nil => rfl
  | cons c rest ih =>
    obtain ⟨hc, hrest⟩ := List.forall_mem_cons.mp htext
    rw [byteSize_cons, utf8Size_of_ascii (h.chars c hc), ih hrest, List.length_cons,
      Nat.add_comm]

/-- So many bytes of the class stand in front where as many characters of the class do. -/
theorem all_take_encoded {width : Nat} (h : SameClass q p) (hwidth : width ≤ byteSize text) :
    ((encoded text).take width).all q = true ↔
      ∃ run after, text = run ++ after ∧ run.length = width ∧ ∀ c ∈ run, p c = true := by
  induction width generalizing text with
  | zero => exact ⟨fun _ => ⟨[], text, rfl, rfl, nofun⟩, fun _ => rfl⟩
  | succ width ih =>
    cases text with
    | nil => exact absurd hwidth (Nat.not_succ_le_zero width)
    | cons c rest =>
      rcases Nat.lt_or_ge c.toNat 128 with hc | hc
      · have hrest : width ≤ byteSize rest := by
          rw [byteSize_cons, utf8Size_of_ascii hc] at hwidth
          omega
        rw [encoded_cons_of_ascii hc, List.take_succ_cons, List.all_cons, Bool.and_eq_true,
          ih hrest, h.ascii c hc]
        constructor
        · rintro ⟨hp, run, after, rfl, rfl, hrun⟩
          exact ⟨c :: run, after, rfl, rfl, List.forall_mem_cons.mpr ⟨hp, hrun⟩⟩
        · rintro ⟨run, after, htext, hlength, hrun⟩
          obtain ⟨d, run, rfl⟩ := List.exists_cons_of_length_eq_add_one hlength
          obtain ⟨rfl, rfl⟩ := List.cons.inj htext
          obtain ⟨hp, hrun⟩ := List.forall_mem_cons.mp hrun
          exact ⟨hp, run, after, rfl, Nat.succ.inj hlength, hrun⟩
      · obtain ⟨b, bs, hbytes, hb⟩ := h.exists_head_of_le hc
        rw [encoded_cons, hbytes, List.cons_append, List.take_succ_cons, List.all_cons, hb,
          Bool.false_and]
        refine ⟨nofun, ?_⟩
        rintro ⟨run, after, htext, hlength, hrun⟩
        obtain ⟨d, run, rfl⟩ := List.exists_cons_of_length_eq_add_one hlength
        obtain ⟨rfl, rfl⟩ := List.cons.inj htext
        have hp := hrun c List.mem_cons_self
        rw [(h.eq_false_of_le hc).1] at hp
        cases hp

end SameClass

theorem IsNumber.byteSize_eq {width : Nat} (h : IsNumber width text) : byteSize text = width := by
  rw [SameClass.isDigit.byteSize_eq h.allDigits, h.length_eq]

theorem head?_encoded_eq_some (hc : c.toNat < 128) :
    (encoded text).head? = some (byte c) ↔ text.head? = some c := by
  have hany := (SameClass.single hc).any_head? text
  rw [Bool.eq_iff_iff, Option.any_eq_true, Option.any_eq_true] at hany
  simpa using hany

end Text
end QueryExpr
