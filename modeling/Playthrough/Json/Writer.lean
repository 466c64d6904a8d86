import Playthrough.Json.Value

/-!
# Writing JSON

`Json.write` is the text of a value in one of two layouts: over several lines with
two blanks of indentation per level (`Layout.indented`), or on one line without any
blanks (`Layout.compact`). Empty arrays and objects never contain a line break.

In strings only quotes, backslashes and the control characters below the blank are
escaped.
-/

namespace Playthrough.Json

/-! ## Strings -/

/-- The lower-case hexadecimal digit with the given value. -/
def hexChar (n : Nat) : Char := n.digitChar

/-- A character as it is written in a string. -/
def escapedChar (c : Char) : List Char :=
  if c = '"' then ['\\', '"']
  else if c = '\\' then ['\\', '\\']
  else if c = '\x08' then ['\\', 'b']
  else if c = '\t' then ['\\', 't']
  else if c = '\n' then ['\\', 'n']
  else if c = '\x0c' then ['\\', 'f']
  else if c = '\r' then ['\\', 'r']
  else if c.toNat < 32 then
    ['\\', 'u', '0', '0', hexChar (c.toNat / 16), hexChar (c.toNat % 16)]
  else [c]

/-- A string with its quotes. -/
def stringChars (s : String) : List Char :=
  '"' :: (s.toList.flatMap escapedChar ++ ['"'])

/-! ## Layouts -/

/-- Where a text has blanks. -/
structure Layout where
  /-- What stands in front of an item or a closing bracket at some depth. -/
  gap : Nat → List Char
  /-- What separates a name from its value. -/
  colon : List Char

/-- Every item on a line of its own, indented by two blanks per level. -/
def Layout.indented : Layout where
  gap depth := '\n' :: List.replicate (2 * depth) ' '
  colon := [':', ' ']

/-- Everything on one line, without blanks. -/
def Layout.compact : Layout where
  gap _ := []
  colon := [':']

/-! ## Values -/

mutual

/-- The text of a value that stands at the given depth. -/
def writeAt (l : Layout) (depth : Nat) : Json → List Char
  | null => ['n', 'u', 'l', 'l']
  | bool true => ['t', 'r', 'u', 'e']
  | bool false => ['f', 'a', 'l', 's', 'e']
  | number n => n.toChars
  | string s => stringChars s
  | array [] => ['[', ']']
  | array (v :: vs) =>
    '[' :: (l.gap (depth + 1) ++ writeAt l (depth + 1) v ++ writeItems l depth vs)
  | object [] => ['\x7b', '\x7d']
  | object ((name, v) :: ms) =>
    '\x7b' :: (l.gap (depth + 1) ++ stringChars name ++ l.colon ++
      writeAt l (depth + 1) v ++ writeMembers l depth ms)

/-- The items of an array behind its first one, with the closing bracket. -/
def writeItems (l : Layout) (depth : Nat) : List Json → List Char
  | [] => l.gap depth ++ [']']
  | v :: vs =>
    ',' :: (l.gap (depth + 1) ++ writeAt l (depth + 1) v ++ writeItems l depth vs)

/-- The members of an object behind its first one, with the closing bracket. -/
def writeMembers (l : Layout) (depth : Nat) : List (String × Json) → List Char
  | [] => l.gap depth ++ ['\x7d']
  | (name, v) :: ms =>
    ',' :: (l.gap (depth + 1) ++ stringChars name ++ l.colon ++
      writeAt l (depth + 1) v ++ writeMembers l depth ms)

end

/-- The text of a value. -/
def write (l : Layout) (v : Json) : String := String.ofList (writeAt l 0 v)

end Playthrough.Json
