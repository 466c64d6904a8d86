/-!
# Text with places

In YAML the place of a character matters as much as the character: structure is told
by indentation, and what may be a key by what stands on one line. So a text is read
as a list of *glyphs*, characters with their line and column, which ends in a glyph
for the end of the text itself.

- `Glyph.ofText?` places the characters of a text, and refuses characters that no
  YAML text may contain;
- the classes of characters are `isBreak`, `isBlank` and their union with the end,
  `isBoundary`.
-/

namespace Playthrough.Yaml

/-! ## Characters -/

/-- Stands for the end of a text. No text may contain it. -/
def endMark : Char := '\x00'

/-- Whether a line ends with the character. The three usual line ends count as one
such character, see `unifyBreaks`. -/
def isBreak (c : Char) : Bool := c == '\n' || c == '\u2028' || c == '\u2029'

/-- Whether the character is a blank within a line. -/
def isBlank (c : Char) : Bool := c == ' ' || c == '\t'

/-- Whether a word ends before the character. -/
def isBoundary (c : Char) : Bool := isBlank c || isBreak c || c == endMark

/-- Whether a text may contain the character: no control characters except for the
line ends and the tab, and none that is set aside. -/
def isAllowed (c : Char) : Bool :=
  c == '\t' || c == '\n' || c == '\r' || (' ' ≤ c && c ≤ '~') || c == '\x85' ||
    ('\xa0' ≤ c && c ≤ '\ufffd') || 0x10000 ≤ c.toNat

/-- The character that marks the byte order when a text starts with it. -/
def byteOrderMark : Char := '\ufeff'

/-- The line ends of other conventions (`\r\n`, `\r`, U+0085) as line feeds. -/
def unifyBreaks : List Char → List Char
  | [] => []
  | '\r' :: '\n' :: rest => '\n' :: unifyBreaks rest
  | c :: rest => (if c == '\r' || c == '\x85' then '\n' else c) :: unifyBreaks rest

/-! ## Glyphs -/

/-- A character at its place in a text. Lines and columns are counted from zero. -/
structure Glyph where
  /-- The character. -/
  char : Char
  /-- The number of line ends before it. -/
  line : Nat
  /-- The number of characters before it on its line. -/
  column : Nat
deriving DecidableEq

namespace Glyph

/-- Places characters, the first of them at the given place. -/
def place (line column : Nat) : List Char → List Glyph
  | [] => [{ char := endMark, line, column }]
  | c :: rest =>
    { char := c, line, column } ::
      if isBreak c then place (line + 1) 0 rest else place line (column + 1) rest

/-- The glyphs of a text. A byte order mark takes up a column but is left out. -/
def ofText? (text : List Char) : Option (List Glyph) :=
  if text.all isAllowed then
    match place 0 0 (unifyBreaks text) with
    | first :: rest => some (if first.char == byteOrderMark then rest else first :: rest)
    | [] => none
  else none

end Glyph

/-! ## Looking at what follows -/

/-- The character `n` places ahead. -/
def ahead (text : List Glyph) (n : Nat) : Char := (text[n]?.map Glyph.char).getD endMark

/-- The next character. -/
def peek (text : List Glyph) : Char := ahead text 0

/-- The line of the next character. -/
def line (text : List Glyph) : Nat := (text.head?.map Glyph.line).getD 0

/-- The column of the next character. -/
def column (text : List Glyph) : Nat := (text.head?.map Glyph.column).getD 0

/-- The text from the next character that is not in the given class. -/
def skipWhile (p : Char → Bool) (text : List Glyph) : List Glyph :=
  text.dropWhile fun g => p g.char

/-- The characters of the given class at the beginning of the text. -/
def takeChars (p : Char → Bool) (text : List Glyph) : List Char :=
  (text.takeWhile fun g => p g.char).map Glyph.char

/-- The text without the rest of its first line; the line end itself is kept. -/
def skipLine (text : List Glyph) : List Glyph :=
  skipWhile (fun c => !isBreak c && c != endMark) text

/-- Whether a line starts here with a word of three times the given character. -/
def startsTriple (c : Char) (text : List Glyph) : Bool :=
  column text == 0 && (List.range 3).all (fun n => ahead text n == c) &&
    isBoundary (ahead text 3)

/-- Whether a line starts here that begins (`---`) or ends (`...`) a document. -/
def startsDocumentMark (text : List Glyph) : Bool :=
  startsTriple '-' text || startsTriple '.' text

end Playthrough.Yaml
