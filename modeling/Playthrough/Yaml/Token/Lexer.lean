import Playthrough.Yaml.Scalar.Block
import Playthrough.Yaml.Scalar.Plain
import Playthrough.Yaml.Scalar.Quoted
import Playthrough.Yaml.Token

/-!
# From text to tokens

What is a key is only known at the `:` behind it. So wherever a key may begin, its
place among the tokens is remembered as *pending* (`PendingKey`); a `:` on the same
line puts a `key` token there, and passing on to another line gives the key up. Every
level of brackets has a pending key of its own.

`tokens` gives all tokens of a text, or, if the text makes no sense somewhere, those
before that place. A token that is or follows a pending key is not among them unless
the key has been settled.
-/

namespace Playthrough.Yaml

/-! ## The state of the lexer -/

/-- A place where a key may have begun. -/
structure PendingKey where
  /-- The number of tokens before the place. -/
  position : Nat
  /-- The line of the place. -/
  line : Nat
  /-- The column of the place. -/
  column : Nat
  /-- Whether nothing but a key makes sense there. -/
  required : Bool
deriving DecidableEq

/-- The longest distance between the beginning of a key and its `:`. -/
def maxKeyLength : Nat := 1024

/-- How far a text has been read. -/
structure Lexer where
  /-- What has not been read yet. -/
  text : List Glyph
  /-- The columns of the open block collections, innermost first. -/
  indents : List Nat := []
  /-- The pending key of the innermost level. -/
  pending : Option PendingKey := none
  /-- The pending keys of the levels around it: one for each open bracket. -/
  outer : List (Option PendingKey) := []
  /-- Whether a key may begin here. -/
  keyAllowed : Bool := true
  /-- The tokens read so far, latest first. -/
  tokens : List Token := []
  /-- The number of tokens read so far. -/
  size : Nat := 0

namespace Lexer

/-- Whether the lexer is within brackets or braces. -/
def inFlow (s : Lexer) : Bool := !s.outer.isEmpty

/-- Adds a token. -/
def add (s : Lexer) (token : Token) : Lexer :=
  { s with tokens := token :: s.tokens, size := s.size + 1 }

/-- Adds a token that takes `length` characters. -/
def push (s : Lexer) (token : Token) (length : Nat) : Lexer :=
  { s.add token with text := s.text.drop length }

/-- Puts a token in front of the one at a position. -/
def insertAt (s : Lexer) (position : Nat) (token : Token) : Lexer :=
  let later := s.size - position
  { s with
    tokens := s.tokens.take later ++ token :: s.tokens.drop later
    size := s.size + 1 }

/-! ## Pending keys -/

/-- Gives the pending key of this level up. -/
def dropKey (s : Lexer) : Option Lexer :=
  if s.pending.any PendingKey.required then none else some { s with pending := none }

/-- Notes that a key may begin here. -/
def noteKey (s : Lexer) : Option Lexer :=
  if s.keyAllowed then do
    let s ← s.dropKey
    return { s with pending := some {
      position := s.size
      line := line s.text
      column := column s.text
      required := !s.inFlow && s.indents.head? == some (column s.text) } }
  else some s

/-- Whether a pending key is too far behind to be one. -/
def isStale (text : List Glyph) (key : PendingKey) : Bool :=
  key.line < line text || key.column + maxKeyLength < column text

/-- Gives up the pending keys that are too far behind, on all levels. -/
def expireKeys (s : Lexer) : Option Lexer :=
  let stale := isStale s.text
  if (s.pending :: s.outer).any (·.any fun key => key.required && stale key) then none
  else
    let fresh (pending : Option PendingKey) := pending.filter fun key => !stale key
    some { s with pending := fresh s.pending, outer := s.outer.map fresh }

/-- The number of tokens that no pending key can change any more. -/
def settled (s : Lexer) : Nat :=
  (s.pending :: s.outer).foldl
    (fun n pending => (pending.map fun key => min n key.position).getD n) s.size

/-- The settled tokens. -/
def settledTokens (s : Lexer) : List Token := (s.tokens.drop (s.size - s.settled)).reverse

/-! ## Indentation -/

/-- Closes the block collections whose columns are in the given class. Brackets and
braces suspend indentation. -/
def closeBlocks (deeper : Nat → Bool) (s : Lexer) : Lexer :=
  if s.inFlow then s
  else
    let closed := s.indents.takeWhile deeper
    closed.foldl (fun s _ => s.add .blockEnd)
      { s with indents := s.indents.drop closed.length }

/-- Opens a block collection at a column, unless the innermost one is as deep. Its
first token is put before the token at `position`. -/
def openBlock (s : Lexer) (start : Token) (column position : Nat) : Lexer :=
  if s.inFlow || s.indents.head?.any (column ≤ ·) then s
  else { s with indents := column :: s.indents }.insertAt position start

/-- Opens a block collection here. -/
def openBlockHere (s : Lexer) (start : Token) : Lexer :=
  s.openBlock start (column s.text) s.size

/-! ## Reading tokens -/

/-- Passes blanks, comments and line ends. A tab is a blank only where no key may
begin. In block context a key may begin on every new line. -/
def skipToToken (s : Lexer) : Lexer :=
  go s.keyAllowed false s.text
where
  /-- Passes over a text, knowing whether a key may begin there and whether it is part
  of a comment. -/
  go (keyAllowed inComment : Bool) : List Glyph → Lexer
    | [] => { s with text := [], keyAllowed }
    | g :: rest =>
      if isBreak g.char then go (keyAllowed || !s.inFlow) false rest
      else if g.char == endMark then { s with text := g :: rest, keyAllowed }
      else if inComment || g.char == ' ' || g.char == '\t' && (s.inFlow || !keyAllowed) then
        go keyAllowed inComment rest
      else if g.char == '#' then go keyAllowed true rest
      else { s with text := g :: rest, keyAllowed }

/-- Reads the end of the text, which counts as the beginning of a new line. -/
def readEnd (s : Lexer) : Option Lexer := do
  let ended : Glyph := { char := endMark, line := line s.text + 1, column := 0 }
  let s := { s with text := if column s.text == 0 then s.text else [ended] }
  let s ← (s.closeBlocks fun _ => true).dropKey
  return { s with keyAllowed := false }.push .textEnd 0

/-- Reads the beginning or end of a document. -/
def readDocumentMark (mark : Token) (s : Lexer) : Option Lexer := do
  let s ← (s.closeBlocks fun _ => true).dropKey
  return { s with keyAllowed := false }.push mark 3

/-- Reads an opening bracket or brace. -/
def readOpening (start : Token) (s : Lexer) : Option Lexer := do
  let s ← s.noteKey
  return { s with pending := none, outer := s.pending :: s.outer, keyAllowed := true }.push start 1

/-- Reads a closing bracket or brace. -/
def readClosing (close : Token) (s : Lexer) : Option Lexer := do
  let s ← s.dropKey
  let s := match s.outer with
    | [] => s
    | pending :: outer => { s with pending, outer }
  return { s with keyAllowed := false }.push close 1

/-- Reads a comma between items. -/
def readFlowEntry (s : Lexer) : Option Lexer := do
  let s ← s.dropKey
  return { s with keyAllowed := true }.push .flowEntry 1

/-- Reads the dash of an item. Within brackets it opens nothing. -/
def readBlockEntry (s : Lexer) : Option Lexer := do
  if !s.inFlow && !s.keyAllowed then none
  else
    let s ← (s.openBlockHere .blockSequenceStart).dropKey
    return { s with keyAllowed := true }.push .blockEntry 1

/-- Reads the question mark of a key. -/
def readKey (s : Lexer) : Option Lexer := do
  if !s.inFlow && !s.keyAllowed then none
  else
    let s ← (s.openBlockHere .blockMappingStart).dropKey
    return { s with keyAllowed := !s.inFlow }.push .key 1

/-- Reads the colon of a value. If a key is pending, this settles it. -/
def readValue (s : Lexer) : Option Lexer :=
  match s.pending with
  | some key =>
    let s := { s with pending := none, keyAllowed := false }.insertAt key.position .key
    some ((s.openBlock .blockMappingStart key.column key.position).push .value 1)
  | none =>
    if !s.inFlow && !s.keyAllowed then none
    else
      let s := s.openBlockHere .blockMappingStart
      some ({ s with keyAllowed := !s.inFlow }.push .value 1)

/-- Whether a character may be part of the name of an anchor. -/
def isNameChar (c : Char) : Bool := c.isAlphanum || c == '_' || c == '-'

/-- Whether a name may end before the character. -/
def endsName (c : Char) : Bool :=
  isBoundary c || ['?', ':', ',', ']', '\x7d', '%', '@', '`'].contains c

/-- Reads the name of an anchor. -/
def readName (token : String → Token) (s : Lexer) : Option Lexer := do
  let s ← s.noteKey
  let name := takeChars isNameChar (s.text.drop 1)
  if name.isEmpty || !endsName (ahead s.text (name.length + 1)) then none
  else
    return { s with keyAllowed := false }.push (token (String.ofList name)) (name.length + 1)

/-- Adds a scalar behind which the given text follows. -/
def pushScalar (s : Lexer) (style : ScalarStyle) (value : List Char) (rest : List Glyph) :
    Lexer :=
  { s.add (.scalar style (String.ofList value)) with text := rest }

/-- Reads a block scalar. -/
def readBlockScalar (folded : Bool) (s : Lexer) : Option Lexer := do
  let s ← s.dropKey
  let (value, rest) ← Scalar.readBlock folded s.indents.head? (s.text.drop 1)
  return { s with keyAllowed := true }.pushScalar .quoted value rest

/-- Reads a quoted scalar. -/
def readQuotedScalar (quote : Scalar.Quote) (s : Lexer) : Option Lexer := do
  let s ← s.noteKey
  let (value, rest) ← Scalar.readQuoted quote .empty (s.text.drop 1)
  return { s with keyAllowed := false }.pushScalar .quoted value rest

/-- Reads a plain scalar. Behind one that ends with its line a key may begin. -/
def readPlainScalar (s : Lexer) : Option Lexer := do
  let s ← s.noteKey
  let context : Scalar.PlainContext :=
    { inFlow := s.inFlow, indent := s.indents.head?.elim 0 (· + 1) }
  let (value, gap, rest) ← Scalar.readPlain context .empty s.text
  return { s with keyAllowed := gap.isBroken }.pushScalar .plain value rest

/-- The characters that mean something else than the beginning of a plain scalar. -/
def indicators : List Char :=
  ['-', '?', ':', ',', '[', ']', '\x7b', '\x7d', '#', '&', '*', '!', '|', '>', '\'', '"', '%',
    '@', '`']

/-- Whether a plain scalar may begin here. -/
def startsPlain (s : Lexer) : Bool :=
  let c := peek s.text
  let next := ahead s.text 1
  !(isBoundary c || indicators.contains c) || c == '-' && !isBlank next ||
    !s.inFlow && (c == '?' || c == ':') && !isBoundary next

/-- Reads the next token, and with it the ends of the block collections before it.
Tags and directives are not understood. -/
def readToken (s : Lexer) : Option Lexer := do
  let s ← s.skipToToken.expireKeys
  let s := s.closeBlocks (column s.text < ·)
  let separated := s.inFlow || isBoundary (ahead s.text 1)
  if startsTriple '-' s.text then s.readDocumentMark .documentStart
  else if startsTriple '.' s.text then s.readDocumentMark .documentEnd
  else
    match peek s.text with
    | '\x00' => s.readEnd
    | '[' => s.readOpening .flowSequenceStart
    | '\x7b' => s.readOpening .flowMappingStart
    | ']' => s.readClosing .flowSequenceEnd
    | '\x7d' => s.readClosing .flowMappingEnd
    | ',' => s.readFlowEntry
    | '*' => s.readName .reference
    | '&' => s.readName .anchor
    | '\'' => s.readQuotedScalar .single
    | '"' => s.readQuotedScalar .double
    | c =>
      if c == '-' && isBoundary (ahead s.text 1) then s.readBlockEntry
      else if c == '?' && separated then s.readKey
      else if c == ':' && separated then s.readValue
      else if (c == '|' || c == '>') && !s.inFlow then s.readBlockScalar (c == '>')
      else if s.startsPlain then s.readPlainScalar
      else none

/-- Reads tokens to the end of the text, or to where it makes no sense. Every token
but the last takes at least one character, so the length of the text is fuel
enough. -/
def readTokens : Nat → Lexer → List Token
  | 0, s => s.settledTokens
  | fuel + 1, s =>
    match s.readToken.bind expireKeys with
    | none => s.settledTokens
    | some s => if s.tokens.head? == some .textEnd then s.settledTokens else readTokens fuel s

end Lexer

/-- The tokens of a text. They end in `textEnd` exactly if all of the text made
sense. -/
def tokens (text : List Char) : List Token :=
  match Glyph.ofText? text with
  | none => []
  | some glyphs => ({ text := glyphs } : Lexer).readTokens glyphs.length

end Playthrough.Yaml
