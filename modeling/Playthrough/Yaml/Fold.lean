import Playthrough.Yaml.Glyph

/-!
# Folded lines

Scalars in quotes and without quotes may run over several lines. The stretch of
blanks and line ends between two words is a *gap*: blanks within a line stand for
themselves, a single line end stands for a space, and of several line ends the first
one is dropped. Blanks around line ends never count.
-/

namespace Playthrough.Yaml

/-- What has been passed since the last word. -/
inductive Gap where
  /-- Nothing but blanks, latest first. -/
  | blanks (cs : List Char)
  /-- At least one line end: the first, unless it was escaped, and the following ones,
  latest first. -/
  | breaks (first : Option Char) (more : List Char)
deriving DecidableEq

namespace Gap

/-- No gap at all. -/
def empty : Gap := .blanks []

/-- The gap that an escaped line end opens. -/
def afterEscapedBreak : Gap := .breaks none []

/-- Whether a line end has been passed. -/
def isBroken : Gap → Bool
  | blanks _ => false
  | breaks _ _ => true

/-- The gap extended by a blank or a line end. -/
def push (c : Char) : Gap → Gap
  | blanks cs => if isBreak c then .breaks (some c) [] else .blanks (c :: cs)
  | breaks first more => .breaks first (if isBreak c then c :: more else more)

/-- What a gap between two words stands for. -/
def text : Gap → List Char
  | blanks cs => cs.reverse
  | breaks (some '\n') [] => [' ']
  | breaks (some '\n') more => more.reverse
  | breaks first more => first.toList ++ more.reverse

end Gap

end Playthrough.Yaml
