import Playthrough.Binary64.Decimal
import Playthrough.Passage

/-!
# Listings

A performance is shown as text, one line for each passage, or as a list of records
from which other programs can tell what is played.
-/

namespace Playthrough

/-! ## Text -/

/-- The stretch of a passage as it is shown, to two places. -/
def Passage.stretchText (p : Passage) : String :=
  "[" ++ p.startX.fixedText 2 ++ ".." ++ p.endX.fixedText 2 ++ "]"

/-- A passage as it is listed: the name of its segment, and the stretch unless the
segment is shown from edge to edge. -/
def Passage.entry (p : Passage) : String :=
  if p.isFull then p.segment.displayName else p.segment.displayName ++ " " ++ p.stretchText

/-- The names of the segments in playing order. -/
def segmentNames (passages : List Passage) : List String :=
  passages.map fun p => p.segment.displayName

/-- The entries in playing order, each ended by a line feed. -/
def listText (passages : List Passage) : String :=
  String.join (passages.map fun p => p.entry ++ "\n")

/-! ## Records -/

/-- What other programs are told of a passage. -/
structure PassageRecord where
  /-- The identifier of the segment. -/
  segment : Uuid
  /-- The position of the segment in the score, from zero on. -/
  segmentIndex : Nat
  /-- The label of the segment, if it has one. -/
  label : Option String
  /-- Where the passage starts. -/
  startX : Binary64
  /-- Where the passage ends. -/
  endX : Binary64
deriving DecidableEq

/-- The record of a passage. -/
def Passage.record (p : Passage) : PassageRecord where
  segment := p.segment.id
  segmentIndex := p.index
  label := p.segment.label
  startX := p.startX
  endX := p.endX

end Playthrough
