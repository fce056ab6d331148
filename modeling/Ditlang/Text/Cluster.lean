import Ditlang.Text.Cluster.Classes

/-!
# Ditlang.Text.Cluster

User-perceived characters: the clusters that a text falls into. A base takes the marks after it;
the parts of a Hangul syllable, two regional indicators, pictographs with a joiner between them and
consonants with a linker between them stay together.
-/

namespace Ditlang
namespace Text
namespace Cluster

/-- What stands before a place in a text, as far as it decides whether the next character belongs
to the same cluster. -/
structure Before where
  last : BreakClass
  /-- An odd number of regional indicators ends here. -/
  oddRegionals : Bool
  /-- A pictograph with its marks ends here. -/
  pictograph : Bool
  /-- A pictograph with its marks and then a joiner ends here. -/
  joined : Bool
  /-- A consonant with its marks ends here. -/
  consonant : Bool
  /-- One of those marks is a linker. -/
  linked : Bool
deriving DecidableEq, Repr

namespace Before

/-- What stands before the place after the first character of a cluster. -/
def start (c : Char) : Before :=
  let cls := BreakClass.of c
  { last := cls
    oddRegionals := cls == .regional
    pictograph := pictographs.contains c
    joined := false
    consonant := conjunctConsonants.contains c
    linked := false }

/-- What stands before the place after one more character of a cluster. -/
def after (b : Before) (c : Char) : Before :=
  let cls := BreakClass.of c
  let marks := (cls == .mark || cls == .joiner) && c.toNat != 0x200C
  let new := conjunctConsonants.contains c
  { last := cls
    oddRegionals := cls == .regional && !b.oddRegionals
    pictograph := pictographs.contains c || (b.pictograph && cls == .mark)
    joined := b.pictograph && cls == .joiner
    consonant := new || (b.consonant && marks)
    linked := !new && b.consonant && marks && (b.linked || linkers.contains c) }

/-- Whether a character belongs to the cluster of what stands before it. -/
def joins (b : Before) (c : Char) : Bool :=
  match b.last, BreakClass.of c with
  | .cr, .lf => true
  | .cr, _ | .lf, _ | .control, _ => false
  | _, .cr | _, .lf | _, .control => false
  | .leading, .leading | .leading, .vowel => true
  | .leading, .openSyllable | .leading, .closedSyllable => true
  | .openSyllable, .vowel | .openSyllable, .trailing | .vowel, .vowel | .vowel, .trailing => true
  | .closedSyllable, .trailing | .trailing, .trailing => true
  | _, .mark | _, .joiner | _, .spacing => true
  | .prepend, _ => true
  | .regional, .regional => b.oddRegionals
  | _, _ => (b.linked && conjunctConsonants.contains c) || (b.joined && pictographs.contains c)

end Before

/-- The clusters of a text whose first cluster has begun with `begun`, last character first. -/
def clustersFrom (b : Before) (begun : List Char) : List Char → List (List Char)
  | [] => [begun.reverse]
  | c :: rest =>
    if b.joins c then clustersFrom (b.after c) (c :: begun) rest
    else begun.reverse :: clustersFrom (.start c) [c] rest

end Cluster

def clusters : List Char → List (List Char)
  | [] => []
  | c :: rest => Cluster.clustersFrom (.start c) [c] rest

end Text
end Ditlang
