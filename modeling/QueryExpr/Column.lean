/-
Column names qualified by dots.

A name is the list of its parts.  A dotted text always has at least one part, and
parts may be empty.
-/

namespace QueryExpr

structure Column where
  parts : List String
  deriving DecidableEq

namespace Column

/-- Cuts the text at every dot. -/
def splitDots : List Char → List (List Char)
  | [] => [[]]
  | c :: rest =>
    if c = '.' then [] :: splitDots rest
    else match splitDots rest with
      | [] => [[c]]
      | part :: parts => (c :: part) :: parts

def parse (dotted : String) : Column := ⟨(splitDots dotted.toList).map String.ofList⟩

/-- The part without its qualifiers. -/
def name (c : Column) : String := c.parts.getLastD ""

def write (c : Column) : List Char := ['.'].intercalate (c.parts.map String.toList)

def display (c : Column) : String := String.ofList c.write

end Column

end QueryExpr
