import Playthrough.Document.Reader
import Playthrough.Formats
import Playthrough.Listing.Writer

/-!
# The standard formats

Documents in YAML, as far as they have no directives and no tags, and records in JSON.
With these formats, the program lists passages as `listJson` does.
-/

namespace Playthrough.Formats

/-- Documents are read from YAML, and records are written as JSON. -/
def standard : Formats where
  decode text := (Document.ofText text).mapError Yaml.DecodeError.message
  print records := .ok (writeRecords records)

end Playthrough.Formats
