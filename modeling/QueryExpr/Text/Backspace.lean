/-
Backspaces in a text that was typed.

A backspace takes back the cluster before it, and is nothing at the beginning of the
text.  What it takes is counted in bytes, and the count of a cluster is kept in one
byte itself: of a cluster of 256 bytes or more only the remainder is taken back.
Should that end inside a character, the text has no meaning.
-/
import QueryExpr.Text.Bytes
import QueryExpr.Text.Cluster

namespace QueryExpr
namespace Text

/-- A text while it is typed. -/
structure Draft where
  /-- What stands, the last character first. -/
  standing : List Char
  /-- The sizes of its clusters, the last one first. -/
  sizes : List Nat

namespace Draft

def empty : Draft := { standing := [], sizes := [] }

/-- Takes a number of bytes off a text that is given from its end, in whole characters. -/
def takeOff : Nat → List Char → Option (List Char)
  | 0, text => some text
  | _ + 1, [] => none
  | n + 1, c :: rest => if c.utf8Size ≤ n + 1 then takeOff (n + 1 - c.utf8Size) rest else none

/-- The draft with a cluster put to its end. -/
def put (d : Draft) (cluster : List Char) : Draft :=
  { standing := cluster.reverse ++ d.standing
    sizes := byteSize cluster % 256 :: d.sizes }

/-- The draft without its last cluster. -/
def erase (d : Draft) : Option Draft :=
  match d.sizes with
  | [] => some d
  | n :: sizes => (takeOff n d.standing).map fun standing => { standing, sizes }

def step (d : Draft) (cluster : List Char) : Option Draft :=
  if cluster = ['\x08'] then d.erase else some (d.put cluster)

end Draft

/-- The text that is left when its backspaces are carried out. -/
def applyBackspaces (text : List Char) : Option (List Char) :=
  ((clusters text).foldlM Draft.step Draft.empty).map fun d => d.standing.reverse

end Text
end QueryExpr
