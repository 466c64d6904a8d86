import Mathlib.Algebra.Order.Ring.Nat
import Mathlib.Order.Monotone.Basic
import Playthrough.Binary64.Rounding

/-!
# The values of binary64 numbers

A finite number has a value, a whole number of units of `2 ^ -1074`. The format orders numbers by
their bits, and this is the order of their values; rounding depends on the value of a quotient
only, and a quotient that is the value of a number is rounded to this number.

- `Binary64.unitsOf_succ`: how far a number is from the next one;
- `Binary64.rank_le_rank_iff`: the order of the bits is the order of the values;
- `Binary64.nearestMagnitude_scale`, `Binary64.nearestMagnitude_unitsOf`: the two facts about
  rounding.
-/

namespace Playthrough

/-! ## Quotients -/

/-- Rounding depends on the value of a quotient only. -/
theorem roundDiv_scale (tie : TieRule) (num den : Nat) {k : Nat} (hk : 0 < k) :
    roundDiv tie (k * num) (k * den) = roundDiv tie num den := by
  have hquotient : k * num / (k * den) = num / den := Nat.mul_div_mul_left num den hk
  have hrest : 2 * (k * num % (k * den)) = k * (2 * (num % den)) := by
    rw [Nat.mul_mod_mul_left, Nat.mul_left_comm]
  have hlt (a b : Nat) : k * a < k * b ↔ a < b := Nat.mul_lt_mul_left hk
  simp only [roundDiv, hquotient, hrest, hlt]

namespace Binary64

/-! ## The order of values -/

/-- The value of a finite number of the given magnitude, in units of `2 ^ -1074`. -/
def unitsOf (magnitude : Nat) : Nat :=
  if magnitude / exponentStep = 0 then magnitude % exponentStep
  else (exponentStep + magnitude % exponentStep) * 2 ^ (magnitude / exponentStep - 1)

theorem units_eq (a : Binary64) : a.units = unitsOf a.magnitude := rfl

theorem exponentStep_pos : 0 < exponentStep := by decide

/-- A magnitude is made of two fields. -/
theorem exists_fields (m : Nat) :
    ∃ exponent fraction, fraction < exponentStep ∧ m = exponent * exponentStep + fraction :=
  ⟨m / exponentStep, m % exponentStep, Nat.mod_lt _ exponentStep_pos, (Nat.div_add_mod' _ _).symm⟩

theorem exponent_of_fields {exponent fraction : Nat} (h : fraction < exponentStep) :
    (exponent * exponentStep + fraction) / exponentStep = exponent := by
  rw [Nat.mul_comm, Nat.mul_add_div exponentStep_pos, Nat.div_eq_of_lt h, Nat.add_zero]

/-- The value of a number by its two fields. -/
theorem unitsOf_fields {exponent fraction : Nat} (h : fraction < exponentStep) :
    unitsOf (exponent * exponentStep + fraction) =
      if exponent = 0 then fraction else (exponentStep + fraction) * 2 ^ (exponent - 1) := by
  have hfraction : (exponent * exponentStep + fraction) % exponentStep = fraction := by
    rw [Nat.mul_add_mod_self_right, Nat.mod_eq_of_lt h]
  rw [unitsOf, exponent_of_fields h, hfraction]

/-- The next number is one unit of the last place away, also where the exponent changes. -/
theorem unitsOf_succ (m : Nat) : unitsOf (m + 1) = unitsOf m + 2 ^ (m / exponentStep - 1) := by
  obtain ⟨e, f, hf, rfl⟩ := exists_fields m
  rw [exponent_of_fields hf, unitsOf_fields hf]
  rcases Nat.lt_or_eq_of_le (Nat.succ_le_of_lt hf) with hlt | hlast
  · -- the exponent stays
    rw [Nat.add_assoc, unitsOf_fields hlt]
    cases e with
    | zero => rfl
    | succ e =>
      rw [if_neg (Nat.succ_ne_zero e), if_neg (Nat.succ_ne_zero e), Nat.succ_eq_add_one,
        ← Nat.add_assoc, Nat.succ_mul]
  · -- the fraction is full, and the next number has the next exponent
    have hnext : e * exponentStep + f + 1 = (e + 1) * exponentStep + 0 := by
      rw [Nat.add_assoc, ← Nat.succ_eq_add_one, hlast, Nat.succ_mul, Nat.add_zero]
    rw [hnext, unitsOf_fields exponentStep_pos, if_neg (Nat.succ_ne_zero e), Nat.add_sub_cancel]
    cases e with
    | zero =>
      show (exponentStep + 0) * 1 = f + 1
      omega
    | succ e =>
      rw [if_neg (Nat.succ_ne_zero e), Nat.add_sub_cancel, ← Nat.succ_mul, ← Nat.add_succ, hlast,
        Nat.pow_succ, Nat.add_zero, ← Nat.two_mul, Nat.mul_comm (2 ^ e), Nat.mul_left_comm,
        Nat.mul_assoc]

theorem unitsOf_strictMono : StrictMono unitsOf := by
  refine strictMono_nat_of_lt_succ fun m => ?_
  rw [unitsOf_succ]
  exact Nat.lt_add_of_pos_right (Nat.two_pow_pos _)

theorem eq_of_magnitude_eq {a b : Binary64} (hsign : a.negative = b.negative)
    (h : a.magnitude = b.magnitude) : a = b := by
  obtain ⟨negative, magnitude, hlt⟩ := a
  obtain ⟨negative', magnitude', hlt'⟩ := b
  obtain rfl : negative = negative' := hsign
  obtain rfl : magnitude = magnitude' := h
  rfl

/-- Two zeros are the same number if they have the same sign. -/
theorem eq_signedZero {a : Binary64} (h : a.magnitude = 0) : a = signedZero a.negative :=
  eq_of_magnitude_eq rfl h

theorem unitsPerOne_pos : 0 < unitsPerOne := by decide +kernel

theorem units_one : one.units = unitsPerOne := by decide +kernel

/-- **The order of the bits is the order of the values.** -/
theorem rank_le_rank_iff {a b : Binary64} : a.rank ≤ b.rank ↔ a.signedUnits ≤ b.signedUnits := by
  have hle : a.units ≤ b.units ↔ a.magnitude ≤ b.magnitude := unitsOf_strictMono.le_iff_le
  have hge : b.units ≤ a.units ↔ b.magnitude ≤ a.magnitude := unitsOf_strictMono.le_iff_le
  have ha : a.units ≤ 0 ↔ a.magnitude ≤ 0 := unitsOf_strictMono.le_iff_le (b := 0)
  have hb : b.units ≤ 0 ↔ b.magnitude ≤ 0 := unitsOf_strictMono.le_iff_le (b := 0)
  unfold rank signedUnits
  cases a.negative <;> cases b.negative <;> simp <;> omega

/-! ## Rounding -/

/-- Rounding depends on the value of a quotient only. -/
theorem nearestMagnitude_scale (num den : Nat) {k : Nat} (hk : 0 < k) :
    nearestMagnitude (k * num) (k * den) = nearestMagnitude num den := by
  have hscaled : k * num * unitsPerOne = k * (num * unitsPerOne) := Nat.mul_assoc ..
  have hquotient : k * (num * unitsPerOne) / (k * den) = num * unitsPerOne / den :=
    Nat.mul_div_mul_left _ _ hk
  simp only [nearestMagnitude, hscaled, hquotient, Nat.mul_assoc k den, roundDiv_scale _ _ _ hk]

theorem nearest_eq {a : Binary64} {num den : Nat} (h : nearestMagnitude num den = a.magnitude) :
    nearest a.negative num den = a := by
  unfold nearest
  exact eq_of_magnitude_eq rfl h

/-- Equal quotients are rounded to the same number. -/
theorem nearestMagnitude_congr {num den num' den' : Nat} (hden : 0 < den) (hden' : 0 < den')
    (h : num * den' = num' * den) : nearestMagnitude num den = nearestMagnitude num' den' := by
  rw [← nearestMagnitude_scale num den hden', ← nearestMagnitude_scale num' den' hden,
    Nat.mul_comm den' num, h, Nat.mul_comm num' den, Nat.mul_comm den' den]

/-- The low bits of a value that there is no room for are those that the exponent stands for. -/
theorem log2_unitsOf (m : Nat) : (unitsOf m).log2 - 52 = m / exponentStep - 1 := by
  obtain ⟨e, f, hf, rfl⟩ := exists_fields m
  rw [exponent_of_fields hf, unitsOf_fields hf]
  cases e with
  | zero =>
    have hlog : f.log2 < 53 := by
      rcases Nat.eq_zero_or_pos f with rfl | hpos
      · decide
      · exact (Nat.log2_lt (Nat.ne_of_gt hpos)).mpr (Nat.lt_trans hf (by decide))
    rw [if_pos rfl]
    omega
  | succ e =>
    have hlog : ((exponentStep + f) * 2 ^ e).log2 = 52 + e := by
      refine (Nat.log2_eq_iff ?_).mpr ⟨?_, ?_⟩
      · exact Nat.ne_of_gt (Nat.mul_pos (by omega) (Nat.two_pow_pos e))
      · rw [Nat.pow_add]
        exact Nat.mul_le_mul_right _ (Nat.le_add_right exponentStep f)
      · rw [Nat.add_right_comm, Nat.pow_add]
        refine Nat.mul_lt_mul_of_pos_right ?_ (Nat.two_pow_pos e)
        show exponentStep + f < exponentStep + exponentStep
        omega
    rw [if_neg (Nat.succ_ne_zero e), Nat.add_sub_cancel, hlog]
    omega

/-- The bits that are kept are the magnitude again, and nothing is lost. -/
theorem significand_unitsOf (m : Nat) :
    (m / exponentStep - 1) * exponentStep + unitsOf m / 2 ^ (m / exponentStep - 1) = m ∧
      unitsOf m / 2 ^ (m / exponentStep - 1) * 2 ^ (m / exponentStep - 1) = unitsOf m := by
  obtain ⟨e, f, hf, rfl⟩ := exists_fields m
  rw [exponent_of_fields hf, unitsOf_fields hf]
  cases e with
  | zero => exact ⟨by simp, by simp⟩
  | succ e =>
    rw [if_neg (Nat.succ_ne_zero e), Nat.add_sub_cancel, Nat.mul_div_cancel _ (Nat.two_pow_pos e)]
    refine ⟨?_, rfl⟩
    rw [Nat.succ_mul]
    omega

/-- **A quotient that is the value of a number is rounded to this number.** -/
theorem nearestMagnitude_unitsOf {m : Nat} (h : m ≤ infinityMagnitude) :
    nearestMagnitude (unitsOf m) unitsPerOne = m := by
  have hquotient : unitsOf m * unitsPerOne / unitsPerOne = unitsOf m :=
    Nat.mul_div_cancel _ unitsPerOne_pos
  obtain ⟨hsum, hexact⟩ := significand_unitsOf m
  have hsignificand : roundDiv .toEven (unitsOf m * unitsPerOne)
      (unitsPerOne * Nat.pow 2 (m / exponentStep - 1)) =
        unitsOf m / 2 ^ (m / exponentStep - 1) := by
    rw [Nat.mul_comm (unitsOf m), roundDiv_scale _ _ _ unitsPerOne_pos]
    nth_rewrite 1 [← hexact]
    exact roundDiv_mul _ _ (Nat.two_pow_pos _)
  simp only [nearestMagnitude, hquotient, log2_unitsOf, hsignificand, hsum]
  exact Nat.min_eq_right h

end Binary64

end Playthrough
