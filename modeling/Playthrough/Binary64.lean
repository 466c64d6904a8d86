/-!
# Binary64 numbers

Places on a page are IEEE 754 binary64 numbers: a layout document writes them in
decimal, they are compared, occasionally added, and printed again with the fewest
digits that name the same number. This module holds the numbers themselves and
the two orders on them.

A number is kept as its sign and its *magnitude*, the exponent and fraction
fields read as one natural number. The format is built so that magnitudes are
ordered as the numbers they stand for, which turns both orders into integer
comparisons:

- `Binary64.rank` puts the sign on the magnitude. It orders every pair of numbers
  that are not NaN, and sends both zeros to `0`; `<` and `≤` compare ranks and are
  false on a NaN.
- `Binary64.totalRank` also separates the two zeros and gives each NaN a place, so
  it is injective: the total order of the standard.
-/

namespace Playthrough

/-- An IEEE 754 binary64 number: the sign, and the other 63 bits read as a natural
number (the eleven exponent bits above the fifty-two fraction bits). -/
structure Binary64 where
  /-- The sign bit. -/
  negative : Bool
  /-- The exponent and fraction bits. -/
  magnitude : Nat
  /-- The exponent and fraction bits are sixty-three. -/
  magnitude_lt : magnitude < 0x8000000000000000 := by decide
deriving DecidableEq

namespace Binary64

/-! ## Particular numbers -/

/-- The magnitude of the infinities: all exponent bits set, no fraction bit. The
magnitudes below it are finite, those above it are NaNs. -/
def infinityMagnitude : Nat := 0x7ff0000000000000

/-- The zero of the given sign. -/
def signedZero (negative : Bool) : Binary64 := { negative, magnitude := 0 }

/-- Positive zero. -/
def zero : Binary64 := signedZero false

/-- The number one. -/
def one : Binary64 := { negative := false, magnitude := 0x3ff0000000000000 }

/-- The infinity of the given sign. -/
def infinity (negative : Bool) : Binary64 :=
  { negative, magnitude := infinityMagnitude }

/-- The NaN that arithmetic yields and that documents can name. -/
def nan : Binary64 := { negative := false, magnitude := 0x7ff8000000000000 }

instance : Inhabited Binary64 := ⟨zero⟩

/-- Not a number. -/
def isNaN (a : Binary64) : Bool := decide (infinityMagnitude < a.magnitude)

/-- Neither an infinity nor a NaN. -/
def isFinite (a : Binary64) : Bool := decide (a.magnitude < infinityMagnitude)

/-! ## The numerical order -/

/-- The place of a number among the integers: its magnitude under its sign. Two
numbers that are not NaN have equal ranks iff they are numerically equal. -/
def rank (a : Binary64) : Int :=
  if a.negative then -(a.magnitude : Int) else a.magnitude

/-- Numerically less; never true of a NaN. -/
instance : LT Binary64 :=
  ⟨fun a b => a.isNaN = false ∧ b.isNaN = false ∧ a.rank < b.rank⟩

/-- Numerically less or equal; never true of a NaN. -/
instance : LE Binary64 :=
  ⟨fun a b => a.isNaN = false ∧ b.isNaN = false ∧ a.rank ≤ b.rank⟩

instance (a b : Binary64) : Decidable (a < b) :=
  inferInstanceAs (Decidable (_ ∧ _ ∧ _))

instance (a b : Binary64) : Decidable (a ≤ b) :=
  inferInstanceAs (Decidable (_ ∧ _ ∧ _))

theorem lt_iff {a b : Binary64} :
    a < b ↔ a.isNaN = false ∧ b.isNaN = false ∧ a.rank < b.rank := Iff.rfl

theorem le_iff {a b : Binary64} :
    a ≤ b ↔ a.isNaN = false ∧ b.isNaN = false ∧ a.rank ≤ b.rank := Iff.rfl

/-! ## The total order -/

/-- The place of a number in the total order of the standard: `-0.0` comes before
`0.0`, NaNs come beyond the infinity of their sign. -/
def totalRank (a : Binary64) : Int :=
  if a.negative then -(a.magnitude : Int) - 1 else a.magnitude

/-- The total order tells all bit patterns apart. -/
theorem totalRank_inj {a b : Binary64} : a.totalRank = b.totalRank ↔ a = b := by
  constructor
  · intro h
    obtain ⟨na, ma, ha⟩ := a
    obtain ⟨nb, mb, hb⟩ := b
    cases na <;> cases nb <;> simp [totalRank] at h ⊢ <;> omega
  · rintro rfl
    rfl

/-- Among numbers that are not NaN the total order refines the numerical one. -/
theorem totalRank_lt_of_lt {a b : Binary64} (h : a < b) : a.totalRank < b.totalRank := by
  obtain ⟨-, -, h⟩ := h
  unfold rank at h
  unfold totalRank
  grind

end Binary64

end Playthrough
