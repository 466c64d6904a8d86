import Playthrough.Yaml.Glyph

/-!
# Block scalars

A block scalar consists of the indented lines below its header: `|` keeps line ends,
`>` folds them. The header may fix the indentation and say what becomes of the line
ends after the last line.
-/

namespace Playthrough.Yaml.Scalar

/-- What becomes of the line ends after the last line of a block scalar. -/
inductive Chomping where
  /-- All are dropped. -/
  | strip
  /-- The first is kept. -/
  | clip
  /-- All are kept. -/
  | keep
deriving DecidableEq

/-- What the header of a block scalar says. -/
structure BlockHeader where
  /-- Whether line ends are folded. -/
  folded : Bool
  /-- What becomes of the last line ends. -/
  chomping : Chomping := .clip
  /-- By how much the lines are indented further than their parent, if it is said. -/
  increment : Option Nat := none

/-! ## Headers -/

/-- Reads a chomping indicator, if there is one. -/
def readChomping (header : BlockHeader) (text : List Glyph) : BlockHeader × List Glyph :=
  if peek text == '+' then ({ header with chomping := .keep }, text.drop 1)
  else if peek text == '-' then ({ header with chomping := .strip }, text.drop 1)
  else (header, text)

/-- Reads an indentation indicator, if there is one. Zero is none. -/
def readIncrement (header : BlockHeader) (text : List Glyph) :
    Option (BlockHeader × List Glyph) :=
  let c := peek text
  if c == '0' then none
  else if c.isDigit then
    some ({ header with increment := some (c.toNat - '0'.toNat) }, text.drop 1)
  else some (header, text)

/-- Reads a header up to and including the end of its line. The two indicators may
come in either order. -/
def readHeader (folded : Bool) (text : List Glyph) : Option (BlockHeader × List Glyph) := do
  let start : BlockHeader := { folded }
  let (header, rest) ←
    if peek text == '+' || peek text == '-' then
      let (header, rest) := readChomping start text
      readIncrement header rest
    else do
      let (header, rest) ← readIncrement start text
      if header.increment.isSome then readChomping header rest else (header, rest)
  let rest := skipWhile isBlank rest
  let rest := if peek rest == '#' then skipLine rest else rest
  if isBreak (peek rest) then some (header, rest.drop 1)
  else if peek rest == endMark then some (header, rest)
  else none

/-! ## Lines -/

/-- Passes empty lines and the indentation of the line that follows them. Returns the
line ends, the widest indentation seen and the rest. While the indentation of the
scalar is not known, all spaces at the beginning of a line count as indentation. -/
def readEmptyLines (indent : Option Nat) (widest : Nat) (text : List Glyph) :
    Option (List Char × Nat × List Glyph) :=
  match text with
  | [] => some ([], widest, [])
  | g :: rest =>
    let indenting := indent.all fun n => g.column < n
    if g.char == ' ' && indenting then readEmptyLines indent widest rest
    else if g.char == '\t' && indenting then none
    else if isBreak g.char then
      (readEmptyLines indent (max widest g.column) rest).map fun (breaks, widest, rest) =>
        (g.char :: breaks, widest, rest)
    else some ([], max widest g.column, g :: rest)

/-- What has been read of a block scalar. -/
structure BlockLines where
  /-- The lines, joined. -/
  value : List Char := []
  /-- The end of the last line, unless the text ended there. -/
  lineEnd : List Char := []
  /-- The ends of the empty lines after it. -/
  emptyLines : List Char
  /-- Whether the last line starts with a blank. Such lines are not folded. -/
  startsBlank : Bool := false

/-- What stands for the line ends between the last line and the next one. -/
def BlockLines.joint (lines : BlockLines) (folded nextStartsBlank : Bool) : List Char :=
  if folded && lines.lineEnd == ['\n'] && !lines.startsBlank && !nextStartsBlank then
    if lines.emptyLines.isEmpty then [' '] else lines.emptyLines
  else lines.lineEnd ++ lines.emptyLines

/-- Reads the lines of a block scalar. Every line takes at least one character, so
the length of the text is fuel enough. -/
def readLines (folded : Bool) (indent : Nat) :
    Nat → BlockLines → List Glyph → Option (BlockLines × List Glyph)
  | 0, lines, text => some (lines, text)
  | fuel + 1, lines, text =>
    if column text ≠ indent ∨ peek text = endMark then some (lines, text)
    else do
      let startsBlank := isBlank (peek text)
      let content := takeChars (fun c => !isBreak c && c != endMark) text
      let rest := skipLine text
      let lineEnd := if isBreak (peek rest) then [peek rest] else []
      let (emptyLines, _, rest) ← readEmptyLines (some indent) 0 (rest.drop lineEnd.length)
      let value := lines.value ++ lines.joint folded startsBlank ++ content
      readLines folded indent fuel { value, lineEnd, emptyLines, startsBlank } rest

/-- Reads a block scalar from behind its `|` or `>`, given the column of the innermost
block collection around it. -/
def readBlock (folded : Bool) (parent : Option Nat) (text : List Glyph) :
    Option (List Char × List Glyph) := do
  let (header, text) ← readHeader folded text
  let known := header.increment.map fun n => parent.getD 0 + n
  let (emptyLines, widest, text) ← readEmptyLines known 0 text
  let least := parent.elim 1 (· + 1)
  let indent := known.getD (max widest least)
  let (lines, text) ← readLines folded indent text.length { emptyLines } text
  let value := match header.chomping with
    | .strip => lines.value
    | .clip => lines.value ++ lines.lineEnd
    | .keep => lines.value ++ lines.lineEnd ++ lines.emptyLines
  return (value, text)

end Playthrough.Yaml.Scalar
