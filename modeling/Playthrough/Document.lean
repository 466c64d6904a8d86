import Playthrough.Layout

/-!
# Layout documents

A `Document` is a layout as it is written down: segments may lack an identifier, and
every mark comes with all the fields that any kind of mark may have. It describes a
layout only if each mark has the fields its kind needs and no others.

- `Document.toLayout` is the layout that a document describes, or the first fault
  among its marks;
- `Document.ofLayout` writes a layout down with all its fields.
-/

namespace Playthrough

/-! ## Marks -/

/-- Whether marks of a kind have a use for a field. -/
def MarkName.takes : MarkName → PayloadField → Bool
  | .repeatBackward, .times => true
  | .volta, .numbers => true
  | .segno, .label | .coda, .label | .dalSegno, .label | .toCoda, .label => true
  | _, _ => false

/-- A mark as it is written down. -/
structure MarkEntry where
  /-- The kind of mark. -/
  kind : MarkName
  /-- Where it stands. -/
  x : Binary64
  /-- How often a repeat is to be played again. -/
  times : Option Nat := none
  /-- For which passes an ending is. -/
  numbers : Option (List Nat) := none
  /-- The label of a landmark, or of the landmark that is meant. -/
  label : Option String := none
deriving DecidableEq

namespace MarkEntry

/-- Whether a field is written down. -/
def has (entry : MarkEntry) : PayloadField → Bool
  | .times => entry.times.isSome
  | .numbers => entry.numbers.isSome
  | .label => entry.label.isSome

/-- The first field that is written down but of no use for this kind of mark. -/
def strayField? (entry : MarkEntry) : Option PayloadField :=
  [.times, .numbers, .label].find? fun field => entry.has field && !entry.kind.takes field

/-- The kind of mark that the fields of use describe. Only an ending cannot do without
its field; a repeat is played again once. -/
def kind? (entry : MarkEntry) : Option MarkKind :=
  match entry.kind with
  | .repeatForward => some .repeatForward
  | .repeatBackward => some (.repeatBackward (entry.times.getD 1))
  | .volta => entry.numbers.map .volta
  | .finalVoltaEnd => some .finalVoltaEnd
  | .segno => some (.segno entry.label)
  | .coda => some (.coda entry.label)
  | .daCapo => some .daCapo
  | .dalSegno => some (.dalSegno entry.label)
  | .toCoda => some (.toCoda entry.label)
  | .fine => some .fine

/-- The mark that an entry describes. What is missing counts before what is too much. -/
def toMark (entry : MarkEntry) : Except SegmentFault Mark :=
  match entry.kind?, entry.strayField? with
  | none, _ => .error .voltaWithoutNumbers
  | some _, some field => .error (.strayField entry.kind field)
  | some kind, none => .ok { kind, x := entry.x }

/-- A mark written down with what it carries. -/
def ofMark (mark : Mark) : MarkEntry :=
  let entry : MarkEntry := { kind := mark.kind.name, x := mark.x }
  match mark.kind with
  | .repeatBackward times => { entry with times }
  | .volta numbers => { entry with numbers }
  | .segno label | .coda label | .dalSegno label | .toCoda label => { entry with label }
  | _ => entry

end MarkEntry

/-! ## Segments -/

/-- A segment as it is written down. -/
structure SegmentEntry where
  /-- What identifies it, if anything does. -/
  id : Option Uuid := none
  /-- The name given to it. -/
  label : Option String := none
  /-- The image that shows it. -/
  image : Option String := none
  /-- The page it is on. -/
  page : Nat := 0
  /-- The rectangle it occupies. -/
  region : Region := .wholePage
  /-- The marks drawn on it. -/
  marks : List MarkEntry := []
deriving DecidableEq

namespace SegmentEntry

/-- The segment that an entry describes, given the identifier it gets if it has none. -/
def toSegment (freshId : Uuid) (entry : SegmentEntry) : Except SegmentFault Segment := do
  let marks ← entry.marks.mapM MarkEntry.toMark
  return {
    id := entry.id.getD freshId
    image := entry.image
    page := entry.page
    region := entry.region
    label := entry.label
    marks }

/-- A segment written down. -/
def ofSegment (segment : Segment) : SegmentEntry where
  id := segment.id
  label := segment.label
  image := segment.image
  page := segment.page
  region := segment.region
  marks := segment.marks.map MarkEntry.ofMark

end SegmentEntry

/-! ## Documents -/

/-- A layout as it is written down. -/
structure Document where
  /-- The title of the piece. -/
  title : Option String := none
  /-- How it is to be performed. -/
  settings : Settings := {}
  /-- The segments of its score. -/
  segments : List SegmentEntry := []
deriving DecidableEq

namespace Document

/-- The layout that a document describes. The segment at an index gets the identifier
that `freshId` has for that index, if it is written down without one. -/
def toLayout (freshId : Nat → Uuid) (document : Document) : Except FaultySegment Layout := do
  let score ← document.segments.zipIdx.mapM fun (entry, index) =>
    (entry.toSegment (freshId index)).mapError fun fault => { number := index + 1, fault }
  return { title := document.title, settings := document.settings, score }

/-- A layout written down. -/
def ofLayout (layout : Layout) : Document where
  title := layout.title
  settings := layout.settings
  segments := layout.score.map SegmentEntry.ofSegment

end Document

end Playthrough
