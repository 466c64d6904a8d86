import Playthrough.Segment
import Playthrough.StableSort

/-!
# Reading order

Segments are read page by page, on a page from top to bottom, and at one height from
left to right. Heights and places are compared in the total order of binary64
numbers, so that every segment has a place whatever its numbers are.
-/

namespace Playthrough

/-- Whether a segment is read strictly before another one. -/
def Segment.readsBefore (a b : Segment) : Bool :=
  decide (a.page < b.page ∨ a.page = b.page ∧
    (a.region.y.totalRank < b.region.y.totalRank ∨
      a.region.y.totalRank = b.region.y.totalRank ∧
        a.region.x.totalRank < b.region.x.totalRank))

/-- Puts segments into reading order; those at the same place stay in the order in
which they were. -/
def sortReadingOrder (score : List Segment) : List Segment :=
  stableSort Segment.readsBefore score

end Playthrough
