import Playthrough.Binary64

/-!
# Rounding to binary64

Every finite binary64 number is a whole multiple of `2 ^ -1074`, so its absolute
value is exactly a natural number of these units (`Binary64.units`). Rounding goes
the other way: `Binary64.nearest` takes an exact quotient of naturals to the
nearest binary64 number, a tie going to the even one.

The rounded result is assembled in one line because magnitudes are contiguous: if
`k` low bits of the unit count have to go and `m` is what remains after rounding,
then the magnitude is `k * 2 ^ 52 + m`, also where `m` is subnormal (`k = 0`) and
where rounding has carried `m` up to `2 ^ 53`.
-/

namespace Playthrough

/-- What happens to a quotient that lies exactly between two integers. -/
inductive TieRule where
  /-- The quotient goes to its even neighbour. -/
  | toEven
  /-- The quotient goes to its upper neighbour. -/
  | up
deriving DecidableEq

/-- The integer nearest to `num / den`; `tie` decides between two that are equally
near. -/
def roundDiv (tie : TieRule) (num den : Nat) : Nat :=
  let quotient := num / den
  let twice := 2 * (num % den)
  if twice < den then quotient
  else if den < twice then quotient + 1
  else match tie with
    | .toEven => quotient + quotient % 2
    | .up => quotient + 1

/-- Rounding never falls below the floor. -/
theorem div_le_roundDiv (tie : TieRule) (num den : Nat) : num / den ≤ roundDiv tie num den := by
  unfold roundDiv
  grind

/-- Rounding never exceeds the integer above the floor. -/
theorem roundDiv_le (tie : TieRule) (num den : Nat) : roundDiv tie num den ≤ num / den + 1 := by
  unfold roundDiv
  grind

/-- An exact quotient is its own rounding. -/
theorem roundDiv_mul (tie : TieRule) (n : Nat) {den : Nat} (h : 0 < den) :
    roundDiv tie (n * den) den = n := by
  unfold roundDiv
  simp [Nat.mul_div_cancel n h, h]

namespace Binary64

/-! ## From numbers to units -/

/-- The lowest exponent bit of a magnitude, which lies above fifty-two fraction bits. -/
def exponentStep : Nat := 0x10000000000000

/-- The absolute value of a finite number in units of `2 ^ -1074`. -/
def units (a : Binary64) : Nat :=
  let exponent := a.magnitude / exponentStep
  let fraction := a.magnitude % exponentStep
  if exponent = 0 then fraction else (exponentStep + fraction) * Nat.pow 2 (exponent - 1)

/-- The value of a finite number in units of `2 ^ -1074`. -/
def signedUnits (a : Binary64) : Int :=
  if a.negative then -(a.units : Int) else a.units

/-! ## From quotients to numbers -/

/-- The number of one expressed in units. -/
def unitsPerOne : Nat := Nat.pow 2 1074

/-- The magnitude nearest to `num / den`, a tie going to the even magnitude. All
quotients from the midpoint above the largest finite number on go to infinity. -/
def nearestMagnitude (num den : Nat) : Nat :=
  let scaled := num * unitsPerOne
  -- The low bits that a significand of fifty-three bits has no room for.
  let dropped := (scaled / den).log2 - 52
  let significand := roundDiv .toEven scaled (den * Nat.pow 2 dropped)
  min infinityMagnitude (dropped * exponentStep + significand)

/-- The binary64 number of the given sign nearest to `num / den`. -/
def nearest (negative : Bool) (num den : Nat) : Binary64 where
  negative
  magnitude := nearestMagnitude num den
  magnitude_lt := Nat.lt_of_le_of_lt (Nat.min_le_left _ _) (by decide)

/-! ## Addition -/

/-- Addition: the exact sum, rounded. Opposite infinities have no sum, and an exact
zero is positive unless both summands are negative. -/
def add (a b : Binary64) : Binary64 :=
  if a.isNaN || b.isNaN then nan
  else if !a.isFinite then
    if !b.isFinite && a.negative != b.negative then nan else a
  else if !b.isFinite then b
  else
    let sum := a.signedUnits + b.signedUnits
    if sum = 0 then signedZero (a.negative && b.negative)
    else nearest (decide (sum < 0)) sum.natAbs unitsPerOne

instance : Add Binary64 := ⟨add⟩

end Binary64

end Playthrough
