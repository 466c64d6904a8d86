import Playthrough.Hexadecimal
import Playthrough.Yaml.Fold

/-!
# Quoted scalars

Between single quotes every character stands for itself, and a quote is written
twice. Between double quotes a backslash starts an escape. Both may run over several
lines, which are folded, but not over the beginning or end of a document.
-/

namespace Playthrough.Yaml.Scalar

/-- The two ways to quote. -/
inductive Quote where
  | single
  | double
deriving DecidableEq

/-- The character before and after a quoted scalar. -/
def Quote.mark : Quote → Char
  | single => '\''
  | double => '"'

/-- The character that a backslash and the given letter stand for. -/
def unescape? : Char → Option Char
  | '0' => some '\x00'
  | 'a' => some '\x07'
  | 'b' => some '\x08'
  | 't' => some '\t'
  | '\t' => some '\t'
  | 'n' => some '\n'
  | 'v' => some '\x0b'
  | 'f' => some '\x0c'
  | 'r' => some '\r'
  | 'e' => some '\x1b'
  | ' ' => some ' '
  | '"' => some '"'
  | '/' => some '/'
  | '\\' => some '\\'
  | 'N' => some '\x85'
  | '_' => some '\xa0'
  | 'L' => some '\u2028'
  | 'P' => some '\u2029'
  | _ => none

/-- How many hexadecimal digits follow a backslash and the given letter. -/
def codeLength? : Char → Option Nat
  | 'x' => some 2
  | 'u' => some 4
  | 'U' => some 8
  | _ => none

/-- The character that an escape stands for and the number of characters it takes,
given what follows the backslash. -/
def readEscape (text : List Glyph) : Option (Char × Nat) :=
  match codeLength? (peek text) with
  | some n => do
    let code ← Hexadecimal.nat? (((text.drop 1).take n).map Glyph.char)
    return (← Hexadecimal.char? code, n + 1)
  | none => (unescape? (peek text)).map fun c => (c, 1)

/-- Reads a quoted scalar from behind its opening quote, or from behind a word and a
gap. Returns its value and what follows the closing quote. -/
def readQuoted (quote : Quote) (gap : Gap) (text : List Glyph) :
    Option (List Char × List Glyph) :=
  match text with
  | [] => none
  | g :: rest =>
    if isBlank g.char || isBreak g.char then readQuoted quote (gap.push g.char) rest
    else if g.char == endMark || startsDocumentMark text then none
    else if g.char == quote.mark then
      if quote == .single && peek rest == '\'' then
        prependWord gap '\'' (readQuoted quote .empty (rest.drop 1))
      else some (gap.text, rest)
    else if g.char == '\\' && quote == .double then
      if isBreak (peek rest) then
        (readQuoted quote .afterEscapedBreak (rest.drop 1)).map fun (value, rest) =>
          (gap.text ++ value, rest)
      else
        match readEscape rest with
        | some (c, length) => prependWord gap c (readQuoted quote .empty (rest.drop length))
        | none => none
    else prependWord gap g.char (readQuoted quote .empty rest)
termination_by text.length
decreasing_by all_goals (simp only [List.length_cons, List.length_drop]; omega)
where
  /-- A value preceded by a gap and a character. -/
  prependWord (gap : Gap) (c : Char) (read : Option (List Char × List Glyph)) :
      Option (List Char × List Glyph) :=
    read.map fun (value, rest) => (gap.text ++ c :: value, rest)

end Playthrough.Yaml.Scalar
