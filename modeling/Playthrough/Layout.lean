import Playthrough.Performance
import Playthrough.ReadingOrder
import Playthrough.Validity

/-!
# Layouts

A layout is what is known of a piece: its title, how it is to be performed, and its
score. Whether the score is valid is asked separately, so that a layout can be
performed while its marks are still being placed.
-/

namespace Playthrough

/-- A piece and how to perform it. -/
structure Layout where
  /-- The title of the piece. -/
  title : Option String := none
  /-- How the piece is to be performed. -/
  settings : Settings := {}
  /-- The segments of the piece. -/
  score : List Segment := []
deriving DecidableEq

namespace Layout

/-- The layout with its segments in reading order. -/
def sorted (layout : Layout) : Layout :=
  { layout with score := sortReadingOrder layout.score }

/-- The layout if its score is valid, and otherwise the first fault of the score. -/
def validated (layout : Layout) : Except FaultySegment Layout :=
  match firstFault? layout.score with
  | none => .ok layout
  | some fault => .error fault

/-- The performance of a layout. -/
def performance (layout : Layout) : Performance := perform layout.settings layout.score

end Layout

end Playthrough
