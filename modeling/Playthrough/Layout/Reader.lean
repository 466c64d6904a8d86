import Playthrough.Document
import Playthrough.Files
import Playthrough.Listing

/-!
# Reading layouts

A layout is read from a text or from a file, by a decoder of documents. On the way a
text can fail to be a layout document or to describe its marks properly; the same type
of errors reports scores that are not valid.

`unroll` goes the whole way from a text to the list of what is played.
-/

namespace Playthrough

/-- Why there is no layout, or none that may be performed. -/
inductive LayoutError where
  /-- The file with the layout cannot be read. -/
  | inaccessible (path : String) (reason : FileError)
  /-- The text is no layout document. -/
  | unreadable (reason : String)
  /-- A segment is described or placed wrongly. -/
  | faulty (fault : FaultySegment)
deriving DecidableEq

/-- The wording of an error. -/
def LayoutError.message : LayoutError → String
  | inaccessible path reason => "Cannot access '" ++ path ++ "': " ++ reason.message
  | unreadable reason => "Invalid layout: " ++ reason
  | faulty fault => fault.message

namespace Layout

/-- Reads a layout, given a decoder of documents and an identifier for each index at
which a segment is written down without one. -/
def ofText (decode : String → Except String Document) (freshId : Nat → Uuid) (text : String) :
    Except LayoutError Layout := do
  let document ← (decode text).mapError .unreadable
  (document.toLayout freshId).mapError .faulty

/-- Reads a layout from a file. -/
def ofFile {m : Type → Type} [Monad m] (files : FileAccess m)
    (decode : String → Except String Document) (freshId : Nat → Uuid) (path : String) :
    m (Except LayoutError Layout) := do
  match ← files.read path with
  | .error reason => return .error (.inaccessible path reason)
  | .ok text => return ofText decode freshId text

end Layout

/-! ## From text to text -/

/-- Lists what is played of the layout in a text, whether its score is valid or not. -/
def unrollUnchecked (decode : String → Except String Document) (freshId : Nat → Uuid)
    (text : String) : Except LayoutError String := do
  let layout ← Layout.ofText decode freshId text
  return listText layout.performance.passages

/-- Lists what is played of the layout in a text if its score is valid. -/
def unroll (decode : String → Except String Document) (freshId : Nat → Uuid) (text : String) :
    Except LayoutError String := do
  let layout ← Layout.ofText decode freshId text
  let layout ← layout.validated.mapError .faulty
  return listText layout.performance.passages

end Playthrough
