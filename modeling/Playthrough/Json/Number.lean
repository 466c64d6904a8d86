import Playthrough.Binary64.Decimal

/-!
# JSON numbers

A JSON number is kept as it is written: sign, whole part, digits behind the point,
exponent. Numbers of equal value but different spelling stay apart, so writing
(`Number.toChars`) and reading (`Number.read`) are inverse to each other.

`Number.ofBinary64?` chooses the spelling in which a listing shows a binary64
number, `Number.toBinary64` is the number that a spelling stands for.
-/

namespace Playthrough.Json

/-- A JSON number, spelled out. -/
structure Number where
  /-- Whether there is a minus sign. -/
  negative : Bool := false
  /-- The part before the point. -/
  whole : Nat
  /-- The digits behind the point; without any there is no point. -/
  fraction : List (Fin 10) := []
  /-- The power of ten, if one is written. -/
  exponent : Option Int := none
deriving DecidableEq

namespace Number

/-- The spelling of a natural number. -/
def ofNat (n : Nat) : Number := { whole := n }

/-! ## Writing -/

/-- The exponent as it is written: always signed, without superfluous zeros. -/
def exponentChars : Option Int → List Char
  | none => []
  | some e => 'e' :: (if e < 0 then '-' else '+') :: Nat.toDigits 10 e.natAbs

/-- The digits behind the point, with the point. -/
def fractionChars : List (Fin 10) → List Char
  | [] => []
  | ds => '.' :: ds.map fun d => d.val.digitChar

/-- The text of a number. -/
def toChars (n : Number) : List Char :=
  Decimal.signChars n.negative ++ Nat.toDigits 10 n.whole ++ fractionChars n.fraction ++
    exponentChars n.exponent

/-! ## Reading -/

/-- The value of a digit. -/
def digitOf (c : Char) : Fin 10 := Fin.ofNat 10 (c.toNat - '0'.toNat)

/-- Reads the digits behind a point, if there is one. -/
def readFraction : List Char → Option (List (Fin 10) × List Char)
  | '.' :: cs =>
    let (digits, rest) := cs.span Char.isDigit
    if digits.isEmpty then none else some (digits.map digitOf, rest)
  | cs => some ([], cs)

/-- Reads an exponent, if there is one. -/
def readExponent : List Char → Option (Option Int × List Char)
  | [] => some (none, [])
  | mark :: cs =>
    if mark = 'e' ∨ mark = 'E' then
      let (negative, cs) := Decimal.splitSign cs
      let (digits, rest) := cs.span Char.isDigit
      if digits.isEmpty then none
      else
        let n : Int := Nat.ofDigitChars 10 digits 0
        some (some (if negative then -n else n), rest)
    else some (none, mark :: cs)

/-- Reads a number from the front of a text and returns what follows it. The whole
part has no superfluous zero in front. -/
def read (cs : List Char) : Option (Number × List Char) := do
  let (negative, cs) := match cs with
    | '-' :: rest => (true, rest)
    | rest => (false, rest)
  let (digits, cs) := cs.span Char.isDigit
  if digits.isEmpty || digits.head? == some '0' && digits.length != 1 then none
  else
    let (fraction, cs) ← readFraction cs
    let (exponent, cs) ← readExponent cs
    return ({ negative, whole := Nat.ofDigitChars 10 digits 0, fraction, exponent }, cs)

/-! ## Values -/

/-- The decimal that a spelling stands for. -/
def toDecimal (n : Number) : Decimal where
  negative := n.negative
  digits := n.fraction.foldl (fun sum d => sum * 10 + d.val) n.whole
  exponent := n.exponent.getD 0 - n.fraction.length

/-- The binary64 number nearest to what a spelling stands for. -/
def toBinary64 (n : Number) : Binary64 := .ofDecimal n.toDecimal

/-- The lowest `k` digits of `n`, highest first. -/
def lowestDigits : Nat → Nat → List (Fin 10)
  | 0, _ => []
  | k + 1, n => lowestDigits k (n / 10) ++ [Fin.ofNat 10 n]

/-- Numbers whose first digit is at one of these powers of ten are written without an
exponent: from `0.00001` to below `10000000000000000`. -/
def positional (place : Int) : Bool := decide (-5 ≤ place ∧ place < 16)

/-- The spelling of a decimal that has no trailing zero: at least one digit behind
the point where no exponent is written, and otherwise an exponent that leaves a
single digit before the point. -/
def ofDecimal (d : Decimal) : Number :=
  let length := (Nat.toDigits 10 d.digits).length
  let place : Int := length - 1 + d.exponent
  if positional place then
    let places := (-d.exponent).toNat
    { negative := d.negative
      whole := d.digits * Decimal.tenPow d.exponent.toNat / Decimal.tenPow places
      fraction := if places = 0 then [0] else lowestDigits places d.digits }
  else
    { negative := d.negative
      whole := d.digits / Decimal.tenPow (length - 1)
      fraction := lowestDigits (length - 1) d.digits
      exponent := some place }

/-- The spelling of a finite number with the fewest digits that read back, of two
equally near spellings the one with the even last digit. JSON has no other numbers. -/
def ofBinary64? (a : Binary64) : Option Number :=
  if a.isFinite then some (ofDecimal (a.shortest .toEven)) else none

end Number

end Playthrough.Json
