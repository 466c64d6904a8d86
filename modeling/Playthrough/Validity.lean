import Playthrough.Fault
import Playthrough.Binary64.Rounding

/-!
# Valid scores

A score can be performed whatever numbers it contains, but only some make sense:
rectangles with an extent that lie on their page, marks between the edges of their
segment, repeats that repeat, and endings for at least one pass counted from one.
Navigation that leads nowhere is not a matter of validity.

`firstFault?` looks through the segments in order, and in each at the rectangle
before the marks and at the place of a mark before what it carries.
-/

namespace Playthrough

/-- Between zero and one, both included. -/
def Binary64.InUnitRange (a : Binary64) : Prop :=
  a.isFinite = true ∧ .zero ≤ a ∧ a ≤ .one

instance (a : Binary64) : Decidable a.InUnitRange :=
  inferInstanceAs (Decidable (_ ∧ _ ∧ _))

/-- A rectangle with an extent in both directions and all edges on its page. The far
edges are the rounded sums. -/
def Region.OnPage (r : Region) : Prop :=
  r.x.InUnitRange ∧ r.y.InUnitRange ∧ .zero < r.width ∧ .zero < r.height ∧
    (r.x + r.width).InUnitRange ∧ (r.y + r.height).InUnitRange

instance (r : Region) : Decidable r.OnPage :=
  inferInstanceAs (Decidable (_ ∧ _ ∧ _ ∧ _ ∧ _ ∧ _))

/-! ## The first fault -/

/-- What is wrong with what a mark carries. -/
def MarkKind.fault? : MarkKind → Option SegmentFault
  | .repeatBackward times => if times = 0 then some .repeatsNever else none
  | .volta numbers =>
    if numbers = [] then some .voltaForNoPass
    else if 0 ∈ numbers then some .voltaForPassZero
    else none
  | _ => none

/-- What is wrong with a mark. -/
def Mark.fault? (m : Mark) : Option SegmentFault :=
  if m.x.InUnitRange then m.kind.fault? else some (.markOffSegment m.kind.name m.x)

/-- The first thing that is wrong with a segment. -/
def Segment.fault? (s : Segment) : Option SegmentFault :=
  if s.region.OnPage then s.marks.findSome? Mark.fault? else some (.regionOffPage s.region)

/-- The first thing that is wrong with a score. -/
def firstFault? (score : List Segment) : Option FaultySegment :=
  score.zipIdx.findSome? fun (s, index) =>
    s.fault?.map fun fault => { number := index + 1, fault }

end Playthrough
