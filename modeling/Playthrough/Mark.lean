import Playthrough.Binary64

/-!
# Navigation marks

The signs that tell a player where to go on: repeats, endings, and the D.C., D.S.,
To Coda and Fine commands with their landmarks. A `Mark` is such a sign at a
horizontal place of the segment it is drawn on, `0.0` being the left edge and `1.0`
the right one.

Each kind of mark has a fixed name (`MarkName`), which is how documents spell it and
how messages mention it; `MarkKind` adds what a kind carries.
-/

namespace Playthrough

/-! ## Names -/

/-- The ten kinds of marks, without what they carry. -/
inductive MarkName where
  | repeatForward
  | repeatBackward
  | volta
  | finalVoltaEnd
  | segno
  | coda
  | daCapo
  | dalSegno
  | toCoda
  | fine
deriving DecidableEq

namespace MarkName

/-- All names, in the order in which messages list them. -/
def all : List MarkName :=
  [.repeatForward, .repeatBackward, .volta, .finalVoltaEnd, .segno, .coda, .daCapo,
    .dalSegno, .toCoda, .fine]

/-- The spelling of a name. -/
def text : MarkName → String
  | repeatForward => "repeat-forward"
  | repeatBackward => "repeat-backward"
  | volta => "volta"
  | finalVoltaEnd => "final-volta-end"
  | segno => "segno"
  | coda => "coda"
  | daCapo => "da-capo"
  | dalSegno => "dal-segno"
  | toCoda => "to-coda"
  | fine => "fine"

/-- The name with the given spelling. -/
def ofText? (s : String) : Option MarkName := all.find? fun name => name.text == s

theorem mem_all (name : MarkName) : name ∈ all := by cases name <;> decide

/-- Reading a spelling gives the name back. -/
theorem ofText?_text (name : MarkName) : ofText? name.text = some name := by
  cases name <;> decide

end MarkName

/-! ## Kinds and marks -/

/-- What a mark asks the player to do. -/
inductive MarkKind where
  /-- Opens a repeated section. -/
  | repeatForward
  /-- Closes a repeated section, to be played `times` more times. -/
  | repeatBackward (times : Nat)
  /-- Opens an ending bracket for the listed passes, counted from one. -/
  | volta (numbers : List Nat)
  /-- Closes the last ending bracket of a repeated section. -/
  | finalVoltaEnd
  /-- The place that a D.S. with the same label goes back to. -/
  | segno (label : Option String)
  /-- The place that a To Coda with the same label goes ahead to. -/
  | coda (label : Option String)
  /-- Back to the beginning. -/
  | daCapo
  /-- Back to the segno with the same label. -/
  | dalSegno (label : Option String)
  /-- On to the coda with the same label, once a D.C. or D.S. is under way. -/
  | toCoda (label : Option String)
  /-- The end of the piece, once a D.C. or D.S. is under way. -/
  | fine
deriving DecidableEq

namespace MarkKind

/-- The name of a kind. -/
def name : MarkKind → MarkName
  | repeatForward => .repeatForward
  | repeatBackward _ => .repeatBackward
  | volta _ => .volta
  | finalVoltaEnd => .finalVoltaEnd
  | segno _ => .segno
  | coda _ => .coda
  | daCapo => .daCapo
  | dalSegno _ => .dalSegno
  | toCoda _ => .toCoda
  | fine => .fine

/-- The passes that an ending bracket is for; no pass for every other kind. -/
def endingNumbers : MarkKind → List Nat
  | volta numbers => numbers
  | _ => []

/-- The kinds at which an ending bracket starts or the last one stops. -/
def isEndingBoundary : MarkKind → Bool
  | volta _ => true
  | finalVoltaEnd => true
  | _ => false

end MarkKind

/-- A navigation mark at a place of its segment. -/
structure Mark where
  /-- What the mark asks for. -/
  kind : MarkKind
  /-- Where it stands between the left edge `0.0` and the right edge `1.0`. -/
  x : Binary64
deriving DecidableEq

end Playthrough
