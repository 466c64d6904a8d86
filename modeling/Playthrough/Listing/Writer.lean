import Playthrough.Json.Writer
import Playthrough.Listing

/-!
# The JSON form of listings

A listing is written as a JSON array with one object for each passage.
-/

namespace Playthrough

/-- A record as a JSON object. If there is no label, there is no such member. -/
def PassageRecord.toJson (record : PassageRecord) : Json :=
  .object <|
    [("segment", .string record.segment.text), ("segmentIndex", .ofNat record.segmentIndex)] ++
      (record.label.map fun label => ("label", Json.string label)).toList ++
      [("startX", .ofBinary64 record.startX), ("endX", .ofBinary64 record.endX)]

/-- Records as a JSON array over several lines. -/
def writeRecords (records : List PassageRecord) : String :=
  (Json.array (records.map PassageRecord.toJson)).write .indented

/-- The passages in playing order as a JSON array. -/
def listJson (passages : List Passage) : String := writeRecords (passages.map Passage.record)

end Playthrough
