import Playthrough.Segment
import Playthrough.Binary64.Decimal

/-!
# Faults of segments

What can be wrong with a single segment of a score. The first two faults concern
marks that a document describes with the wrong fields, so that no mark can be made
of them; the others are numbers that are out of range. A fault is reported together
with the number of its segment, counted from one.
-/

namespace Playthrough

/-- A field by which a document describes what a mark carries. -/
inductive PayloadField where
  | times
  | numbers
  | label
deriving DecidableEq

/-- The name of a field. -/
def PayloadField.text : PayloadField → String
  | times => "times"
  | numbers => "numbers"
  | label => "label"

/-- Something wrong with a segment. -/
inductive SegmentFault where
  /-- An ending bracket that does not say for which passes it is. -/
  | voltaWithoutNumbers
  /-- A field that marks of this kind have no use for. -/
  | strayField (kind : MarkName) (field : PayloadField)
  /-- A rectangle without extent or not within its page. -/
  | regionOffPage (region : Region)
  /-- A mark that is not between the edges of its segment. -/
  | markOffSegment (kind : MarkName) (x : Binary64)
  /-- A `:||` that goes back zero times. -/
  | repeatsNever
  /-- An ending bracket for no pass. -/
  | voltaForNoPass
  /-- An ending bracket for pass zero. -/
  | voltaForPassZero
deriving DecidableEq

/-- The wording of a fault. -/
def SegmentFault.message : SegmentFault → String
  | voltaWithoutNumbers => "volta marker needs a 'numbers' list"
  | strayField kind field => kind.text ++ " marker does not take '" ++ field.text ++ "'"
  | regionOffPage r =>
    "bounding box (" ++ r.x.text ++ ", " ++ r.y.text ++ ", " ++ r.width.text ++ " x " ++
      r.height.text ++ ") is not inside the page"
  | markOffSegment kind x =>
    kind.text ++ " marker position " ++ x.text ++ " is outside 0.0..=1.0"
  | repeatsNever => "repeat-backward must repeat at least once"
  | voltaForNoPass => "volta numbers must not be empty"
  | voltaForPassZero => "volta numbers start at 1"

/-- A fault and where it is. -/
structure FaultySegment where
  /-- The number of the segment, counted from one. -/
  number : Nat
  /-- What is wrong with it. -/
  fault : SegmentFault
deriving DecidableEq

/-- The wording of a reported fault. -/
def FaultySegment.message (f : FaultySegment) : String :=
  "Invalid segment " ++ toString f.number ++ ": " ++ f.fault.message

end Playthrough
