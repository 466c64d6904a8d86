/-!
# Decimal numbers

A `Decimal` is what a written number says: a sign, the digits read as one natural
number, and the power of ten they are counted in. The sign is kept apart from the
digits because `-0` is a number of its own.

- `Decimal.ofChars?` reads the usual spellings (`1`, `.5`, `1.`, `-2.50e-3`).
- `Decimal.toChars` writes a decimal with a point and without an exponent.
-/

namespace Playthrough

/-- The number `± digits * 10 ^ exponent`. -/
structure Decimal where
  /-- Whether the number carries a minus sign. -/
  negative : Bool
  /-- All digits, read as one natural number. -/
  digits : Nat
  /-- The power of ten that the digits are counted in. -/
  exponent : Int
deriving DecidableEq

namespace Decimal

/-- The powers of ten. -/
def tenPow (n : Nat) : Nat := Nat.pow 10 n

/-! ## Reading -/

/-- The natural number that a non-empty run of decimal digits spells. -/
def nat? (cs : List Char) : Option Nat :=
  if !cs.isEmpty && cs.all Char.isDigit then some (Nat.ofDigitChars 10 cs 0) else none

/-- Splits a leading sign off; the flag says whether it was a minus. -/
def splitSign : List Char → Bool × List Char
  | '-' :: rest => (true, rest)
  | '+' :: rest => (false, rest)
  | rest => (false, rest)

/-- Reads what may follow the digits of a number: nothing, or `e` or `E` with a
signed whole number. -/
def exponent? : List Char → Option Int
  | [] => some 0
  | mark :: rest =>
    if mark = 'e' ∨ mark = 'E' then
      let (negative, digits) := splitSign rest
      (nat? digits).map fun n => if negative then -(n : Int) else n
    else none

/-- Reads a decimal number: an optional sign, digits with at most one point among
or around them (at least one digit in all), and an optional exponent. -/
def ofChars? (cs : List Char) : Option Decimal :=
  let (negative, cs) := splitSign cs
  let (whole, cs) := cs.span Char.isDigit
  let (fraction, cs) := match cs with
    | '.' :: rest => rest.span Char.isDigit
    | rest => ([], rest)
  if whole.isEmpty && fraction.isEmpty then none
  else (exponent? cs).map fun e =>
    { negative
      digits := Nat.ofDigitChars 10 (whole ++ fraction) 0
      exponent := e - fraction.length }

/-! ## Writing -/

/-- The digits of `n` in two groups, the second of exactly `places` digits; zeros
are put in front where `n` has too few digits to leave one for the first group. -/
def splitPlaces (n places : Nat) : List Char × List Char :=
  let digits := Nat.toDigits 10 n
  let padded := List.replicate (places + 1 - digits.length) '0' ++ digits
  padded.splitAt (padded.length - places)

/-- The digits of `n` with a point before the last `places` of them, and no point if
`places` is zero. -/
def pointed (n places : Nat) : List Char :=
  match places with
  | 0 => Nat.toDigits 10 n
  | places + 1 =>
    let (whole, fraction) := splitPlaces n (places + 1)
    whole ++ '.' :: fraction

/-- The sign as it is written in front of a number. -/
def signChars (negative : Bool) : List Char := if negative then ['-'] else []

/-- Writes a decimal in full, without an exponent. -/
def toChars (d : Decimal) : List Char :=
  signChars d.negative ++
    if 0 ≤ d.exponent then Nat.toDigits 10 (d.digits * tenPow d.exponent.toNat)
    else pointed d.digits (-d.exponent).toNat

/-- The same number with no trailing zero among its digits. -/
def normalize (d : Decimal) : Decimal :=
  if d.digits = 0 then { d with exponent := 0 }
  else
    let zeros := ((Nat.toDigits 10 d.digits).reverse.takeWhile (· == '0')).length
    { d with digits := d.digits / tenPow zeros, exponent := d.exponent + zeros }

end Decimal

end Playthrough
