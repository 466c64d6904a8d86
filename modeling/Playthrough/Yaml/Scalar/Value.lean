import Playthrough.Binary64.Decimal
import Playthrough.Hexadecimal

/-!
# What plain scalars mean

A plain scalar may be nothing, a truth value, a whole number, a real number or mere
text. Where a number is asked for, `natural?` and `real?` read it; `Value.ofText`
says what a scalar is taken for where no particular kind of value is asked for.

Decimal digits behind a leading zero are no whole number, but they are a real number
where one is asked for.
-/

namespace Playthrough.Yaml.Scalar

/-! ## Whole numbers -/

/-- The bases of whole numbers that are told by a letter behind a zero. -/
def baseOfLetter? : Char → Option Nat
  | 'x' => some 16
  | 'o' => some 8
  | 'b' => some 2
  | _ => none

/-- The number that a non-empty run of digits spells in a base up to sixteen. -/
def digits? (base : Nat) (cs : List Char) : Option Nat :=
  if cs.isEmpty then none
  else
    (cs.mapM fun c => (Hexadecimal.digit? c).filter (· < base)).map fun digits =>
      digits.foldl (fun n digit => n * base + digit) 0

/-- The number that a zero, the letter of a base and digits spell. -/
def based? : List Char → Option Nat
  | '0' :: letter :: cs => do digits? (← baseOfLetter? letter) cs
  | _ => none

/-- Whether digits with a leading zero are no whole number. -/
def hasLeadingZero (cs : List Char) : Bool :=
  let digits := (Decimal.splitSign cs).2
  decide (1 < digits.length) && digits.head? == some '0' && digits.all Char.isDigit

/-- The number without its plus sign. -/
def dropPlus : List Char → List Char
  | '+' :: cs => cs
  | cs => cs

/-- The natural number below a limit that a plain scalar spells. -/
def natural? (limit : Nat) (cs : List Char) : Option Nat :=
  let unsigned := dropPlus cs
  let inRange (n : Nat) : Bool := n < limit
  ((based? unsigned).filter inRange).or <|
    if hasLeadingZero cs then none else (digits? 10 unsigned).filter inRange

/-- The number not below minus the limit that a plain scalar spells with a minus
sign. -/
def negative? (limit : Nat) : List Char → Option Int
  | '-' :: cs =>
    let inRange (n : Nat) : Bool := n ≤ limit
    let magnitude := ((based? cs).filter inRange).or <|
      if hasLeadingZero cs then none else (digits? 10 cs).filter inRange
    magnitude.map fun n => -(n : Int)
  | _ => none

/-! ## Real numbers -/

/-- The real number that a plain scalar spells. Infinities and NaN have spellings of
their own; no other number may be out of range. -/
def real? (cs : List Char) : Option Binary64 :=
  let unsigned := dropPlus cs
  if [".inf", ".Inf", ".INF"].contains (String.ofList unsigned) then some (.infinity false)
  else if ["-.inf", "-.Inf", "-.INF"].contains (String.ofList cs) then some (.infinity true)
  else if [".nan", ".NaN", ".NAN"].contains (String.ofList cs) then some .nan
  else if cs.head? == some '+' && ['+', '-'].any (unsigned.head? == some ·) then none
  else ((Decimal.ofChars? unsigned).map Binary64.ofDecimal).filter Binary64.isFinite

/-! ## Any value -/

/-- What a plain scalar is taken for. -/
inductive Value where
  /-- Nothing. -/
  | null
  /-- A truth value. -/
  | boolean (b : Bool)
  /-- A whole number. -/
  | whole (n : Int)
  /-- A real number. -/
  | real (a : Binary64)
  /-- Anything else. -/
  | text (s : String)
deriving DecidableEq

/-- Whether a plain scalar stands for nothing. -/
def isNull (s : String) : Bool := ["", "~", "null", "Null", "NULL"].contains s

/-- The largest whole numbers have 128 bits, and the least one is as far from zero as
a sign bit allows. -/
def whole? (cs : List Char) : Option Int :=
  ((natural? 0x100000000000000000000000000000000 cs).map Int.ofNat).or
    (negative? 0x80000000000000000000000000000000 cs)

/-- What a plain scalar is taken for. -/
def Value.ofText (s : String) : Value :=
  let cs := s.toList
  if isNull s then .null
  else if ["true", "True", "TRUE"].contains s then .boolean true
  else if ["false", "False", "FALSE"].contains s then .boolean false
  else
    match whole? cs with
    | some n => .whole n
    | none =>
      match if hasLeadingZero cs then none else real? cs with
      | some a => .real a
      | none => .text s

end Playthrough.Yaml.Scalar
