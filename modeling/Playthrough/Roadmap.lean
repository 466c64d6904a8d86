import Playthrough.Segment
import Playthrough.StableSort

/-!
# The roadmap of a score

Players call the repeats, endings and jumps of a piece its *roadmap*. Here it is the
list of all marks of a score in the order in which they are met when the score is
read from left to right, each with the index of its segment. Marks at the same place
of a segment stay in the order in which they were placed.

- `Roadmap.ofScore` flattens a score.
- `Roadmap.firstSegno?`, `firstCoda?`, `nextEndingBoundary` and `highestEnding` are
  the four questions that navigation asks about the roadmap.
-/

namespace Playthrough

/-- A point of a score: a segment, by its index, and a place between that segment's
edges. -/
structure Position where
  /-- The index of the segment. -/
  segment : Nat
  /-- The place in it. -/
  x : Binary64
deriving DecidableEq

/-- The right edge of a segment. -/
def Position.endOf (segment : Nat) : Position := { segment, x := .one }

/-- A mark with the index of the segment that it is drawn on. -/
structure PlacedMark where
  /-- The index of the segment. -/
  segment : Nat
  /-- The mark. -/
  mark : Mark
deriving DecidableEq

namespace PlacedMark

/-- Where a mark stands in the score. -/
def position (m : PlacedMark) : Position := { segment := m.segment, x := m.mark.x }

/-- What a placed mark asks for. -/
def kind (m : PlacedMark) : MarkKind := m.mark.kind

end PlacedMark

/-- All marks of a score in reading order. -/
abbrev Roadmap := List PlacedMark

namespace Roadmap

/-! ## Construction -/

/-- The marks of one segment from left to right. Both zeros are the same place. -/
def marksInOrder (s : Segment) : List Mark :=
  stableSort (fun a b => decide (a.x < b.x)) s.marks

/-- The roadmap of a score: segment after segment, each from left to right. -/
def ofScore (score : List Segment) : Roadmap :=
  score.zipIdx.flatMap fun (s, index) =>
    (marksInOrder s).map fun mark => { segment := index, mark }

/-! ## Landmarks -/

/-- The index of the first segno with exactly this label (no label matches only no
label). -/
def firstSegno? (road : Roadmap) (label : Option String) : Option Nat :=
  road.findIdx? fun m => decide (m.kind = .segno label)

/-- The index of the first coda with exactly this label. -/
def firstCoda? (road : Roadmap) (label : Option String) : Option Nat :=
  road.findIdx? fun m => decide (m.kind = .coda label)

/-! ## Endings -/

/-- The index of the first ending bracket or close of the last bracket behind
`cursor`, or the length of the roadmap if there is none. -/
def nextEndingBoundary (road : Roadmap) (cursor : Nat) : Nat :=
  match (road.drop (cursor + 1)).findIdx? fun m => m.kind.isEndingBoundary with
  | some offset => cursor + 1 + offset
  | none => road.length

/-- The highest pass number among the ending brackets from index `first` through
index `last`, at least one. There are no brackets between indices in the wrong
order. -/
def highestEnding (road : Roadmap) (first last : Nat) : Nat :=
  (((road.take (last + 1)).drop first).flatMap fun m => m.kind.endingNumbers).foldl max 1

end Roadmap

end Playthrough
