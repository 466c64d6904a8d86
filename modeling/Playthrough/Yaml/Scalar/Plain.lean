import Playthrough.Yaml.Fold

/-!
# Plain scalars

A plain scalar is written without quotes. It ends where a comment, a `: `, a document
mark or, within brackets, a comma or bracket follows, and in block context before a
line that is not indented deeply enough.
-/

namespace Playthrough.Yaml.Scalar

/-- Where a plain scalar stands. -/
structure PlainContext where
  /-- Whether it stands within brackets or braces. -/
  inFlow : Bool
  /-- The least column of its further lines. -/
  indent : Nat

/-- Whether no plain scalar can go on with the next character whatever came before:
the character begins a value or, within brackets, separates or closes items. -/
def endsPlain (inFlow : Bool) (text : List Glyph) : Bool :=
  (peek text == ':' && isBoundary (ahead text 1)) ||
    (inFlow && [',', '[', ']', '\x7b', '\x7d'].contains (peek text))

/-- Whether there is a colon here that may neither begin a value nor be part of a
word. -/
def strayColon (inFlow : Bool) (text : List Glyph) : Bool :=
  inFlow && peek text == ':' &&
    [',', '?', '[', ']', '\x7b', '\x7d'].contains (ahead text 1)

/-- Reads a plain scalar from behind a word and a gap. Returns its value, the gap
behind its last word, and what follows that gap. -/
def readPlain (context : PlainContext) (gap : Gap) (text : List Glyph) :
    Option (List Char × Gap × List Glyph) :=
  match text with
  | [] => some ([], gap, [])
  | g :: rest =>
    if isBlank g.char || isBreak g.char then
      -- Indentation is made of spaces.
      if gap.isBroken && g.column < context.indent && g.char == '\t' then none
      else readPlain context (gap.push g.char) rest
    else if g.char == endMark || startsDocumentMark (g :: rest) then some ([], gap, g :: rest)
    else if gap ≠ .empty ∧ (g.char = '#' ∨ !context.inFlow ∧ g.column < context.indent) then
      some ([], gap, g :: rest)
    else if strayColon context.inFlow (g :: rest) then none
    else if endsPlain context.inFlow (g :: rest) then some ([], gap, g :: rest)
    else (readPlain context .empty rest).map fun (value, gap', rest) =>
      (gap.text ++ g.char :: value, gap', rest)

end Playthrough.Yaml.Scalar
