import Playthrough.Decimal
import Playthrough.Binary64.Rounding

/-!
# Binary64 numbers in decimal

The two directions between binary64 numbers and their written form:

- `Binary64.ofDecimal` is the binary64 number nearest to a decimal;
- `Binary64.shortest` is the decimal with the fewest digits that reads back as the
  number, of several the one nearest to it (`TieRule` settles an exact tie). Reading
  back is tested with `ofDecimal` itself, on the two decimals of one, two, three, …
  digits that enclose the number.

On top of them stand the two texts in which numbers are shown: `Binary64.text`
spells out the shortest digits without ever using an exponent, and
`Binary64.fixedText` rounds the exact value to a given number of places.
-/

namespace Playthrough.Binary64

open Decimal (tenPow)

/-! ## Reading -/

/-- The binary64 number nearest to a decimal. Numbers that are certainly beyond
either end of the range are settled by the place of their first digit, so that a
huge exponent costs nothing. -/
def ofDecimal (d : Decimal) : Binary64 :=
  let places : Int := (Nat.toDigits 10 d.digits).length + d.exponent
  if d.digits = 0 ∨ places < -330 then signedZero d.negative
  else if 310 < places then infinity d.negative
  else nearest d.negative (d.digits * tenPow d.exponent.toNat) (tenPow (-d.exponent).toNat)

/-! ## The shortest decimal -/

/-- The power of ten of the first digit of `num / den`. -/
def leadingPlace (num den : Nat) : Int :=
  let places : Int := (Nat.toDigits 10 num).length - (Nat.toDigits 10 den).length
  if den * tenPow places.toNat ≤ num * tenPow (-places).toNat then places else places - 1

/-- The digits of a multiple of `10 ^ exponent` that reads back as `a`: the nearest
multiple if it does, else whichever of the two enclosing multiples does. -/
def digitsOnGrid (tie : TieRule) (a : Binary64) (exponent : Int) : Option Nat :=
  let num := a.units * tenPow (-exponent).toNat
  let den := unitsPerOne * tenPow exponent.toNat
  [roundDiv tie num den, num / den, num / den + 1].find? fun digits =>
    ofDecimal { negative := a.negative, digits, exponent } = a

/-- The exact value of a finite number as a decimal, with every digit it has. -/
def exactDecimal (a : Binary64) : Decimal :=
  { negative := a.negative, digits := a.units * Nat.pow 5 1074, exponent := -1074 }

/-- The decimal with the fewest digits that reads back as the finite number `a`.
Seventeen digits always suffice. -/
def shortest (tie : TieRule) (a : Binary64) : Decimal :=
  if a.units = 0 then { negative := a.negative, digits := 0, exponent := 0 }
  else
    let place := leadingPlace a.units unitsPerOne
    let found := (List.range 17).findSome? fun (extra : Nat) =>
      let exponent := place - extra
      (digitsOnGrid tie a exponent).map fun digits =>
        ({ negative := a.negative, digits, exponent } : Decimal)
    (found.getD a.exactDecimal).normalize

/-! ## Texts -/

/-- The text of a number that has no digits: an infinity or a NaN. -/
def specialText (a : Binary64) : String :=
  if a.isNaN then "NaN" else if a.negative then "-inf" else "inf"

/-- The shortest digits that name the number, in full and without an exponent; of two
equally near spellings the upper one. -/
def text (a : Binary64) : String :=
  if a.isFinite then String.ofList (a.shortest .up).toChars else a.specialText

/-- The exact value rounded to a fixed number of places, a half going to the even
neighbour. A number that rounds to zero keeps its sign. -/
def fixedText (places : Nat) (a : Binary64) : String :=
  if a.isFinite then
    let rounded := roundDiv .toEven (a.units * tenPow places) unitsPerOne
    String.ofList (Decimal.signChars a.negative ++ Decimal.pointed rounded places)
  else a.specialText

end Playthrough.Binary64
