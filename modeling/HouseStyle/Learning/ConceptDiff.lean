import HouseStyle.Concept
import HouseStyle.Store.Rows

/-!
# Differences between concepts

The stored concepts of a file are compared with those found in it now. Concepts of one
name and kind are matched in the order of their locations; a match that has moved
counts as modified, and what is left over as added or removed.
-/

namespace HouseStyle

/-- What tells concepts apart, and where they are. -/
structure ConceptMark where
  name : String
  kind : String
  lineStart : Int
  lineEnd : Int
  deriving DecidableEq, Repr, Inhabited

namespace ConceptMark

def ofRow (row : ConceptRow) : ConceptMark := ⟨row.name, row.kind, row.lineStart, row.lineEnd⟩

def ofConcept (concept : Concept) : ConceptMark :=
  ⟨concept.name, concept.kind.name, concept.lineStart, concept.lineEnd⟩

def key (mark : ConceptMark) : String × String := (mark.name, mark.kind)

def location (mark : ConceptMark) : Int × Int := (mark.lineStart, mark.lineEnd)

end ConceptMark

structure ConceptCounts where
  added : Nat
  modified : Nat
  removed : Nat
  deriving DecidableEq, Repr, Inhabited

namespace ConceptCounts

def zero : ConceptCounts := ⟨0, 0, 0⟩

def add (a b : ConceptCounts) : ConceptCounts :=
  ⟨a.added + b.added, a.modified + b.modified, a.removed + b.removed⟩

end ConceptCounts

def locationBefore (a b : Int × Int) : Bool := a.1 < b.1 || (a.1 == b.1 && a.2 ≤ b.2)

/-- The locations of the concepts with a key, in order. -/
def locationsOf (key : String × String) (marks : List ConceptMark) : List (Int × Int) :=
  ((marks.filter (·.key == key)).map (·.location)).mergeSort locationBefore

/-- Compare sorted locations place by place. -/
def diffLocations (old new : List (Int × Int)) : ConceptCounts :=
  ⟨new.length - old.length, (old.zip new).countP fun (a, b) => a != b, old.length - new.length⟩

def diffConcepts (old new : List ConceptMark) : ConceptCounts :=
  ((new ++ old).map (·.key)).eraseDups.foldl (fun counts key =>
    counts.add (diffLocations (locationsOf key old) (locationsOf key new))) .zero

end HouseStyle
