import Playthrough.Document
import Playthrough.Listing

/-!
# Formats

How layout documents are read from a text and how records are written into one. Either
may fail, for a reason that is told in words. `Formats` leaves open what the texts look
like.
-/

namespace Playthrough

/-- Ways to read documents and to write records. -/
structure Formats where
  /-- The document in a text. -/
  decode : String → Except String Document
  /-- The text of a list of records. -/
  print : List PassageRecord → Except String String

end Playthrough
