import Playthrough.Mark
import Playthrough.Uuid

/-!
# Segments

A score is cut into segments, each a rectangle of a page with the navigation marks
drawn on it. A score is the list of its segments in reading order.
-/

namespace Playthrough

/-- A rectangle of a page, in fractions of the page's width and height. -/
structure Region where
  /-- The left edge. -/
  x : Binary64
  /-- The top edge. -/
  y : Binary64
  /-- The extent to the right. -/
  width : Binary64
  /-- The extent downwards. -/
  height : Binary64
deriving DecidableEq

/-- The rectangle that is the whole page. -/
def Region.wholePage : Region where
  x := .zero
  y := .zero
  width := .one
  height := .one

/-- One displayable piece of a score. -/
structure Segment where
  /-- What identifies the segment. -/
  id : Uuid
  /-- The image that shows it; never opened here. -/
  image : Option String := none
  /-- The page it is on. -/
  page : Nat := 0
  /-- The rectangle of that page it occupies. -/
  region : Region := .wholePage
  /-- The name given to it. -/
  label : Option String := none
  /-- The marks drawn on it, in the order in which they were placed. -/
  marks : List Mark := []
deriving DecidableEq

/-- What a segment is called in listings: its label, or its identifier if it has
none. -/
def Segment.displayName (s : Segment) : String := s.label.getD s.id.text

end Playthrough
