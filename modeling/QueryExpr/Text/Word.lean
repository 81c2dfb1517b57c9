/-
Words: a letter or underscore of ASCII followed by letters, digits and
underscores.  Case is folded for the letters of ASCII alone.
-/

namespace QueryExpr
namespace Text

def isWordStart (c : Char) : Bool := c.isAlpha || c == '_'

def isWordPart (c : Char) : Bool := c.isAlphanum || c == '_'

/-- The longest word that the text starts with, empty when there is none. -/
def word : List Char → List Char
  | [] => []
  | c :: rest => if isWordStart c then c :: rest.takeWhile isWordPart else []

/-- The whole text is one word. -/
def isWord : List Char → Bool
  | [] => false
  | c :: rest => isWordStart c && rest.all isWordPart

theorem takeWhile_eq_self {p : Char → Bool} {text : List Char} (h : ∀ c ∈ text, p c = true) :
    text.takeWhile p = text := by
  induction text with
  | nil => rfl
  | cons c rest ih =>
    rw [List.takeWhile_cons, if_pos (h c List.mem_cons_self),
      ih fun d hd => h d (List.mem_cons_of_mem c hd)]

theorem word_eq_self_of_isWord {text : List Char} (h : isWord text = true) : word text = text := by
  cases text with
  | nil => rfl
  | cons c rest =>
    simp only [isWord, Bool.and_eq_true, List.all_eq_true] at h
    rw [word, if_pos h.1, takeWhile_eq_self h.2]

/-- The text with the capitals of ASCII made small. -/
def lower (s : String) : String := String.ofList (s.toList.map Char.toLower)

end Text
end QueryExpr
