import Playthrough.Json.Value
import Playthrough.Hexadecimal

/-!
# Reading JSON

`Json.read` accepts exactly the texts that consist of one JSON value, with blanks
around any part of it. A character of a string beyond the basic plane may be escaped
as a surrogate pair; a lone surrogate names no character and is refused.
-/

namespace Playthrough.Json

/-- Whether a character may stand between the parts of a value. -/
def isBlank (c : Char) : Bool := c == ' ' || c == '\n' || c == '\t' || c == '\r'

/-- A text without the blanks in front of it. -/
def skipBlanks (cs : List Char) : List Char := cs.dropWhile isBlank

/-! ## Strings -/

/-- The character that a backslash and the given letter stand for. -/
def unescape? : Char → Option Char
  | '"' => some '"'
  | '\\' => some '\\'
  | '/' => some '/'
  | 'b' => some '\x08'
  | 'f' => some '\x0c'
  | 'n' => some '\n'
  | 'r' => some '\r'
  | 't' => some '\t'
  | _ => none

/-- Reads a string up to its closing quote and returns what follows it. -/
def readString : List Char → Option (List Char × List Char)
  | '"' :: rest => some ([], rest)
  | '\\' :: 'u' :: a :: b :: c :: d :: rest => do
    let unit ← Hexadecimal.nat? [a, b, c, d]
    if 0xD800 ≤ unit ∧ unit < 0xDC00 then
      -- The first half of a pair; the second half has to follow.
      match rest with
      | '\\' :: 'u' :: a' :: b' :: c' :: d' :: rest =>
        let low ← Hexadecimal.nat? [a', b', c', d']
        if 0xDC00 ≤ low ∧ low < 0xE000 then
          let char ← Hexadecimal.char? (0x10000 + (unit - 0xD800) * 0x400 + (low - 0xDC00))
          let (s, rest) ← readString rest
          return (char :: s, rest)
        else none
      | _ => none
    else
      let char ← Hexadecimal.char? unit
      let (s, rest) ← readString rest
      return (char :: s, rest)
  | '\\' :: letter :: rest => do
    let char ← unescape? letter
    let (s, rest) ← readString rest
    return (char :: s, rest)
  | c :: rest =>
    if c = '\\' ∨ c.toNat < 32 then none
    else do
      let (s, rest) ← readString rest
      return (c :: s, rest)
  | [] => none

/-! ## Values -/

mutual

/-- Reads a value and returns what follows it. -/
def readValue : Nat → List Char → Option (Json × List Char)
  | 0, _ => none
  | fuel + 1, cs =>
    match skipBlanks cs with
    | '"' :: rest => (readString rest).map fun (s, rest) => (.string (String.ofList s), rest)
    | '[' :: rest =>
      match skipBlanks rest with
      | ']' :: rest => some (.array [], rest)
      | rest => (readItems fuel rest).map fun (items, rest) => (.array items, rest)
    | '\x7b' :: rest =>
      match skipBlanks rest with
      | '\x7d' :: rest => some (.object [], rest)
      | rest => (readMembers fuel rest).map fun (members, rest) => (.object members, rest)
    | 'n' :: 'u' :: 'l' :: 'l' :: rest => some (.null, rest)
    | 't' :: 'r' :: 'u' :: 'e' :: rest => some (.bool true, rest)
    | 'f' :: 'a' :: 'l' :: 's' :: 'e' :: rest => some (.bool false, rest)
    | rest => (Number.read rest).map fun (n, rest) => (.number n, rest)

/-- Reads the items of an array, of which there is at least one, and its closing
bracket. -/
def readItems : Nat → List Char → Option (List Json × List Char)
  | 0, _ => none
  | fuel + 1, cs => do
    let (v, rest) ← readValue fuel cs
    match skipBlanks rest with
    | ',' :: rest =>
      let (vs, rest) ← readItems fuel rest
      return (v :: vs, rest)
    | ']' :: rest => return ([v], rest)
    | _ => none

/-- Reads the members of an object, of which there is at least one, and its closing
bracket. -/
def readMembers : Nat → List Char → Option (List (String × Json) × List Char)
  | 0, _ => none
  | fuel + 1, cs => do
    match skipBlanks cs with
    | '"' :: rest =>
      let (name, rest) ← readString rest
      match skipBlanks rest with
      | ':' :: rest =>
        let (v, rest) ← readValue fuel rest
        match skipBlanks rest with
        | ',' :: rest =>
          let (ms, rest) ← readMembers fuel rest
          return ((String.ofList name, v) :: ms, rest)
        | '\x7d' :: rest => return ([(String.ofList name, v)], rest)
        | _ => none
      | _ => none
    | _ => none

end

/-- Reads a text that consists of one value. Each level of a value takes at least one
character and two calls, so twice the length of the text is fuel enough. -/
def ofChars? (cs : List Char) : Option Json := do
  let (v, rest) ← readValue (2 * cs.length + 2) cs
  if (skipBlanks rest).isEmpty then return v else none

/-- Reads a text that consists of one value. -/
def read (s : String) : Option Json := ofChars? s.toList

end Playthrough.Json
