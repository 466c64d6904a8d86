import Playthrough.Roadmap

/-!
# Passages

What is played is a list of passages, each a stretch of one segment. The passages
that lead from one position to another (`Passage.between`) are the rest of the
first segment, the segments between, and the last segment up to the goal; stretches
without width are left out.
-/

namespace Playthrough

/-- A stretch of one segment. -/
structure Passage where
  /-- The segment. -/
  segment : Segment
  /-- The index of the segment in the score. -/
  index : Nat
  /-- Where the stretch begins. -/
  startX : Binary64
  /-- Where the stretch ends. -/
  endX : Binary64
deriving DecidableEq

namespace Passage

/-- Whether a passage shows its segment from edge to edge. -/
def isFull (p : Passage) : Bool := decide (p.startX ≤ .zero ∧ .one ≤ p.endX)

/-- Where the music behind a position begins. Before anything was played this is the
beginning of the score; a position at a right edge has finished its segment, so
that the music goes on at the beginning of the next one. -/
def resume : Option Position → Position
  | none => { segment := 0, x := .zero }
  | some p => if .one ≤ p.x then { segment := p.segment + 1, x := .zero } else p

/-- The part of the segment with this index that lies between two positions, if it
has any width. -/
def within (start goal : Position) (s : Segment) (index : Nat) : Option Passage :=
  let startX := if index = start.segment then start.x else .zero
  let endX := if index = goal.segment then goal.x else .one
  if startX < endX then some { segment := s, index, startX, endX } else none

/-- The passages behind `played` (nothing, before the beginning) up to `goal`, as far
as the score has segments. There are none if `goal` lies before. -/
def between (score : List Segment) (played : Option Position) (goal : Position) :
    List Passage :=
  let start := resume played
  let touched := (score.drop start.segment).take (goal.segment + 1 - start.segment)
  (touched.zipIdx start.segment).filterMap fun (s, index) => within start goal s index

end Passage

end Playthrough
