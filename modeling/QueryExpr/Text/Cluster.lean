/-
Clusters: the stretches of a text that a reader takes for one character each.

A text is cut between any two characters unless something holds them together: the
two ends of a line break, the parts of a syllable of Hangul, a mark behind its
letter, a sign before it, consonants that a sign links, pictographs with a joiner
between them, or the two letters of a flag.

Whether a character goes on with a cluster depends on that cluster alone, so one
pass over the text finds all of them.
-/
import QueryExpr.Text.GraphemeBreak

namespace QueryExpr
namespace Text

namespace BreakClass

/-- Nothing goes on with the character, and it goes on with nothing. -/
def isApart : BreakClass → Bool
  | .carriageReturn | .lineFeed | .control => true
  | _ => false

/-- The character goes on with whatever stands before it. -/
def attaches : BreakClass → Bool
  | .extending | .joiner | .spacingMark => true
  | _ => false

/-- Two parts of one syllable of Hangul. -/
def sameSyllable : BreakClass → BreakClass → Bool
  | .leading, .leading => true
  | .leading, .vowel => true
  | .leading, .openSyllable => true
  | .leading, .closedSyllable => true
  | .openSyllable, .vowel => true
  | .openSyllable, .trailing => true
  | .vowel, .vowel => true
  | .vowel, .trailing => true
  | .closedSyllable, .trailing => true
  | .trailing, .trailing => true
  | _, _ => false

end BreakClass

/-- A cluster, given from its end, ends in a consonant with a linking sign behind it. -/
def endsLinked (cluster : List Char) : Bool :=
  (cluster.takeWhile isLinkMark).any isLinker &&
    match cluster.dropWhile isLinkMark with
    | [] => false
    | base :: _ => breakClass base == .consonant

/-- A cluster, given from its end, ends in a pictograph, with marks behind it or none. -/
def endsInPictograph (cluster : List Char) : Bool :=
  match cluster.dropWhile fun c => breakClass c == .extending with
  | [] => false
  | base :: _ => breakClass base == .pictograph

/-- A cluster, given from its end, ends in half a flag. -/
def endsInHalfFlag (cluster : List Char) : Bool :=
  (cluster.takeWhile fun c => breakClass c == .regional).length % 2 == 1

/-- A character goes on with a cluster, given from its end. -/
def continues (cluster : List Char) (c : Char) : Bool :=
  match cluster with
  | [] => true
  | last :: earlier =>
    let before := breakClass last
    let after := breakClass c
    if before == .carriageReturn && after == .lineFeed then true
    else if before.isApart || after.isApart then false
    else
      after.attaches || before == .prepended || before.sameSyllable after ||
        (after == .consonant && endsLinked cluster) ||
        (before == .joiner && after == .pictograph && endsInPictograph earlier) ||
        (after == .regional && endsInHalfFlag cluster)

/-- The clusters of a text, the first of them begun and given from its end. -/
def clustersFrom : (cluster : List Char) → List Char → List (List Char)
  | cluster, [] => [cluster.reverse]
  | cluster, c :: rest =>
    if continues cluster c then clustersFrom (c :: cluster) rest
    else cluster.reverse :: clustersFrom [c] rest

/-- The clusters of a text in order. -/
def clusters : List Char → List (List Char)
  | [] => []
  | c :: rest => clustersFrom [c] rest

theorem flatten_clustersFrom (cluster text : List Char) :
    (clustersFrom cluster text).flatten = cluster.reverse ++ text := by
  induction text generalizing cluster with
  | nil => simp [clustersFrom]
  | cons c rest ih =>
    rw [clustersFrom]
    split
    · simp [ih]
    · simp [ih]

/-- Nothing is lost. -/
theorem flatten_clusters (text : List Char) : (clusters text).flatten = text := by
  cases text with
  | nil => rfl
  | cons c rest => exact flatten_clustersFrom [c] rest

end Text
end QueryExpr
