import Playthrough.Hexadecimal

/-!
# Segment identifiers

Segments are identified by UUIDs: 128-bit numbers. They are always written in
lower-case hexadecimal with hyphens (`Uuid.toChars`) and read in four spellings
(`Uuid.ofChars?`): hyphenated, hyphenated in braces, hyphenated behind `urn:uuid:`,
or as thirty-two bare digits, in either case of letters.
-/

namespace Playthrough

/-- A 128-bit identifier. -/
structure Uuid where
  /-- The identifier as a number. -/
  value : Nat
  /-- The number has 128 bits. -/
  value_lt : value < 0x100000000000000000000000000000000 := by decide
deriving DecidableEq

namespace Uuid

instance : Inhabited Uuid := ⟨{ value := 0 }⟩

/-- The identifier with the number `n`, whose bits beyond the lowest 128 are ignored. -/
def ofNat (n : Nat) : Uuid where
  value := n % 0x100000000000000000000000000000000
  value_lt := Nat.mod_lt _ (by decide)

/-- A version 4 identifier from 122 or more random bits: the version and variant
fields are set, all other bits are taken from `n`. -/
def ofRandomBits (n : Nat) : Uuid :=
  let low := n % 0x4000000000000000
  let middle := n / 0x4000000000000000 % 0x1000
  let high := n / 0x4000000000000000 / 0x1000 % 0x1000000000000
  ofNat (high * 0x100000000000000000000 + (0x4000 + middle) * 0x10000000000000000 +
    (0x8000000000000000 + low))

/-! ## Texts -/

/-- The lengths of the groups of digits between hyphens. -/
def groupLengths : List Nat := [8, 4, 4, 4, 12]

/-- Cuts a list into consecutive pieces of the given lengths; what is left over, if
anything, is one last piece. -/
def cut : List Nat → List Char → List (List Char)
  | [], [] => []
  | [], rest => [rest]
  | n :: lengths, cs => cs.take n :: cut lengths (cs.drop n)

/-- The hyphenated lower-case text of an identifier. -/
def toChars (id : Uuid) : List Char :=
  let digits := Nat.toDigits 16 id.value
  let padded := List.replicate (32 - digits.length) '0' ++ digits
  List.intercalate ['-'] (cut groupLengths padded)

/-- The text of an identifier. -/
def text (id : Uuid) : String := String.ofList id.toChars

/-- Reads exactly thirty-two hexadecimal digits. -/
def ofDigits? (cs : List Char) : Option Uuid :=
  if cs.length = 32 then (Hexadecimal.nat? cs).map ofNat else none

/-- Reads the hyphenated form: thirty-six characters, hyphens exactly between the
groups. -/
def ofHyphenated? (cs : List Char) : Option Uuid :=
  match cut [8, 1, 4, 1, 4, 1, 4, 1, 12] cs with
  | [a, h₁, b, h₂, c, h₃, d, h₄, e] =>
    if [h₁, h₂, h₃, h₄].all (· == ['-']) then ofDigits? (a ++ b ++ c ++ d ++ e) else none
  | _ => none

/-- Reads an identifier in any of its four spellings. -/
def ofChars? (cs : List Char) : Option Uuid :=
  match cs with
  | '\x7b' :: rest =>
    -- A brace in front has to have its partner at the end.
    if rest.getLast? = some '\x7d' then ofHyphenated? rest.dropLast else none
  | 'u' :: 'r' :: 'n' :: ':' :: 'u' :: 'u' :: 'i' :: 'd' :: ':' :: rest => ofHyphenated? rest
  | _ => (ofDigits? cs).or (ofHyphenated? cs)

end Uuid

end Playthrough
