/-!
# Hexadecimal digits

The reading of numbers written in base sixteen, with letters of either case.
-/

namespace Playthrough.Hexadecimal

/-- The value of a hexadecimal digit. -/
def digit? (c : Char) : Option Nat :=
  if c.isDigit then some (c.toNat - '0'.toNat)
  else if 'a' ≤ c ∧ c ≤ 'f' then some (c.toNat - 'a'.toNat + 10)
  else if 'A' ≤ c ∧ c ≤ 'F' then some (c.toNat - 'A'.toNat + 10)
  else none

/-- The number that a run of hexadecimal digits spells; the empty run spells zero. -/
def nat? (cs : List Char) : Option Nat :=
  (cs.mapM digit?).map fun digits => digits.foldl (fun n digit => n * 16 + digit) 0

/-- The character with the given code point, unless that is a surrogate or beyond the
last plane. -/
def char? (n : Nat) : Option Char :=
  if h : n.isValidChar then some (Char.ofNatAux n h) else none

end Playthrough.Hexadecimal
