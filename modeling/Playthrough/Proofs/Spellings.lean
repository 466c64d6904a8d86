import Mathlib.Algebra.GroupWithZero.Basic
import Mathlib.Data.Nat.Basic
import Playthrough.Json.Number
import Playthrough.Proofs.Values

/-!
# Spellings of binary64 numbers

A finite number is read back from its shortest decimal, and from the spelling that this decimal
gets as a JSON number. Only the value of a decimal counts when it is read: where its point stands
and how many zeros are behind its digits has no influence.

- `Binary64.ofDecimal_mul_tenPow`: reading depends on the value of a decimal only;
- `Binary64.ofDecimal_shortest`: a number is read back from its shortest decimal;
- `Json.Number.toBinary64_ofBinary64?`: and from its spelling as a JSON number.
-/

namespace Playthrough

open Decimal (tenPow)

namespace Decimal

theorem tenPow_pos (n : Nat) : 0 < tenPow n := Nat.pow_pos (by decide)

theorem tenPow_add (m n : Nat) : tenPow (m + n) = tenPow m * tenPow n := Nat.pow_add ..

theorem tenPow_eq (n : Nat) : tenPow n = 10 ^ n := rfl

/-- Zeros behind the digits of a number are more digits. -/
theorem length_toDigits_mul_tenPow {n : Nat} (hn : 0 < n) (k : Nat) :
    (Nat.toDigits 10 (n * tenPow k)).length = (Nat.toDigits 10 n).length + k := by
  induction k with
  | zero => rw [tenPow_eq, Nat.pow_zero, Nat.mul_one, Nat.add_zero]
  | succ k ih =>
    have hpos : 0 < n * tenPow k := Nat.mul_pos hn (tenPow_pos k)
    have hdigits := Nat.toDigits_append_toDigits (b := 10) (d := 0) (by decide) hpos (by decide)
    have hstep : n * tenPow (k + 1) = 10 * (n * tenPow k) + 0 := by
      rw [tenPow_eq, tenPow_eq, Nat.pow_succ, Nat.add_zero]
      ac_rfl
    rw [hstep, ← hdigits, List.length_append, ih, Nat.add_assoc]
    rfl

/-- The zeros at the end of a number are powers of ten in it. -/
theorem tenPow_trailing_dvd (n : Nat) :
    tenPow ((Nat.toDigits 10 n).reverse.takeWhile (· == '0')).length ∣ n := by
  obtain ⟨zeros, hzeros⟩ :
      ∃ zeros, (Nat.toDigits 10 n).reverse.takeWhile (· == '0') = zeros := ⟨_, rfl⟩
  have hreplicate : zeros = List.replicate zeros.length '0' := by
    refine List.eq_replicate_iff.mpr ⟨rfl, fun c hc => ?_⟩
    rw [← hzeros] at hc
    exact beq_iff_eq.mp (List.all_eq_true.mp List.all_takeWhile c hc)
  obtain ⟨front, hfront⟩ : ∃ front, Nat.toDigits 10 n = front ++ zeros.reverse := by
    refine ⟨((Nat.toDigits 10 n).reverse.dropWhile (· == '0')).reverse, ?_⟩
    rw [← List.reverse_append, ← hzeros, List.takeWhile_append_dropWhile, List.reverse_reverse]
  have hvalue : Nat.ofDigitChars 10 (front ++ zeros.reverse) 0 = n := by
    rw [← hfront, Nat.ofDigitChars_ten_toDigits]
  rw [hzeros, ← hvalue, hreplicate, List.reverse_replicate, Nat.ofDigitChars_append,
    Nat.ofDigitChars_replicate_zero, List.length_replicate]
  exact Nat.dvd_mul_right _ _

end Decimal

namespace Binary64

open Decimal

/-! ## Reading -/

/-- What a decimal that is not out of range is read as. -/
theorem ofDecimal_of_nonzero {negative : Bool} {digits : Nat} {exponent : Int} (h : digits ≠ 0)
    (hlow : -330 ≤ (Nat.toDigits 10 digits).length + exponent)
    (hhigh : (Nat.toDigits 10 digits).length + exponent ≤ 310) :
    ofDecimal { negative, digits, exponent } =
      nearest negative (digits * tenPow exponent.toNat) (tenPow (-exponent).toNat) := by
  unfold ofDecimal
  rw [if_neg, if_neg (Int.not_lt.mpr hhigh)]
  rintro (hzero | hsmall)
  · exact h hzero
  · exact Int.not_lt.mpr hlow hsmall

theorem ofDecimal_zero (negative : Bool) (exponent : Int) :
    ofDecimal { negative, digits := 0, exponent } = signedZero negative := by
  unfold ofDecimal
  exact if_pos (.inl rfl)

/-- **Reading depends on the value of a decimal only.** -/
theorem ofDecimal_mul_tenPow (negative : Bool) (digits k : Nat) (exponent : Int) :
    ofDecimal { negative, digits := digits * tenPow k, exponent } =
      ofDecimal { negative, digits, exponent := exponent + k } := by
  rcases Nat.eq_zero_or_pos digits with rfl | hpos
  · rw [Nat.zero_mul, ofDecimal_zero, ofDecimal_zero]
  · have hzero : digits * tenPow k = 0 ↔ digits = 0 := by
      have := Nat.ne_of_gt (tenPow_pos k)
      simp [this]
    have hplaces : ((Nat.toDigits 10 (digits * tenPow k)).length : Int) + exponent =
        (Nat.toDigits 10 digits).length + (exponent + k) := by
      rw [length_toDigits_mul_tenPow hpos]
      omega
    have hnearest : nearest negative (digits * tenPow k * tenPow exponent.toNat)
        (tenPow (-exponent).toNat) = nearest negative (digits * tenPow (exponent + k).toNat)
          (tenPow (-(exponent + k)).toNat) := by
      have hexponents : k + exponent.toNat + (-(exponent + k)).toNat =
          (exponent + k).toNat + (-exponent).toNat := by omega
      have hvalue : digits * tenPow k * tenPow exponent.toNat * tenPow (-(exponent + k)).toNat =
          digits * tenPow (exponent + k).toNat * tenPow (-exponent).toNat := by
        rw [Nat.mul_assoc digits, ← tenPow_add, Nat.mul_assoc digits, ← tenPow_add, hexponents,
          tenPow_add, Nat.mul_assoc]
      simp only [nearest, nearestMagnitude_congr (tenPow_pos _) (tenPow_pos _) hvalue]
    simp only [ofDecimal, hzero, hplaces, hnearest]

/-- Zeros at the end have no influence on what is read. -/
theorem ofDecimal_normalize (d : Decimal) : ofDecimal d.normalize = ofDecimal d := by
  obtain ⟨negative, digits, exponent⟩ := d
  unfold Decimal.normalize
  by_cases hzero : digits = 0
  · subst hzero
    rw [if_pos rfl, ofDecimal_zero, ofDecimal_zero]
  · rw [if_neg hzero]
    have hdigits := Nat.div_mul_cancel (tenPow_trailing_dvd digits)
    show ofDecimal { negative, digits := digits / tenPow _, exponent := exponent + _ } = _
    rw [← ofDecimal_mul_tenPow, hdigits]

/-! ## Reading back -/

theorem units_eq_zero_iff {a : Binary64} : a.units = 0 ↔ a.magnitude = 0 :=
  unitsOf_strictMono.injective.eq_iff (b := 0)

theorem units_lt_of_isFinite {a : Binary64} (h : a.isFinite = true) : a.units < 2 ^ 2098 := by
  have hlt : a.magnitude < infinityMagnitude := of_decide_eq_true h
  refine Nat.lt_of_lt_of_le (unitsOf_strictMono hlt) ?_
  decide +kernel

/-- A finite number is read back from its value, whose unit is so many powers of five behind the
point. The bounds say that its first digit is within the range of places that numbers have. -/
theorem ofDecimal_units {a : Binary64} (hfinite : a.isFinite = true) (hunits : a.units ≠ 0)
    (fives places low high : Nat) (hfives : fives * unitsPerOne = tenPow places)
    (hlow : tenPow low ≤ fives) (hplaces : places ≤ low + 330)
    (hhigh : 2 ^ 2098 * fives < tenPow high) (hpos : 0 < high) (hplaces' : high ≤ places + 310) :
    ofDecimal { negative := a.negative, digits := a.units * fives, exponent := -places } = a := by
  have hpow : 0 < fives := Nat.lt_of_lt_of_le (tenPow_pos low) hlow
  have hdigits : 0 < a.units * fives := Nat.mul_pos (Nat.pos_of_ne_zero hunits) hpow
  have hlow : low ≤ (Nat.toDigits 10 (a.units * fives)).length := by
    rcases Nat.eq_zero_or_pos low with rfl | hlow'
    · exact Nat.zero_le _
    · by_contra hlt
      have hle := (Nat.length_toDigits_le_iff (by decide) hlow').mp (Nat.le_of_not_le hlt)
      have hge := Nat.le_mul_of_pos_left fives (Nat.pos_of_ne_zero hunits)
      exact Nat.not_lt.mpr (Nat.le_trans hlow hge) hle
  have hhigh : (Nat.toDigits 10 (a.units * fives)).length ≤ high := by
    rw [Nat.length_toDigits_le_iff (by decide) hpos]
    exact Nat.lt_trans ((Nat.mul_lt_mul_right hpow).mpr (units_lt_of_isFinite hfinite)) hhigh
  have hnum : (-(places : Int)).toNat = 0 := by omega
  have hden : (-(-(places : Int))).toNat = places := by omega
  have hvalue : a.units * fives * tenPow 0 * unitsPerOne = a.units * tenPow places := by
    rw [← hfives, tenPow_eq 0, Nat.pow_zero, Nat.mul_one, Nat.mul_assoc]
  have hmagnitude : a.magnitude ≤ infinityMagnitude := Nat.le_of_lt (of_decide_eq_true hfinite)
  have hnearest := nearestMagnitude_congr (tenPow_pos places) unitsPerOne_pos hvalue
  rw [units_eq, nearestMagnitude_unitsOf hmagnitude] at hnearest
  rw [ofDecimal_of_nonzero (Nat.ne_of_gt hdigits) (by omega) (by omega), hnum, hden]
  exact nearest_eq hnearest

/-- What is found on a grid was read back before. -/
theorem ofDecimal_of_digitsOnGrid {tie : TieRule} {a : Binary64} {digits : Nat} {exponent : Int}
    (h : digitsOnGrid tie a exponent = some digits) :
    ofDecimal { negative := a.negative, digits, exponent } = a := by
  unfold digitsOnGrid at h
  have hread := List.find?_some h
  exact of_decide_eq_true hread

/-- **A finite number is read back from its shortest decimal.** -/
theorem ofDecimal_shortest (tie : TieRule) {a : Binary64} (h : a.isFinite = true) :
    ofDecimal (a.shortest tie) = a := by
  unfold shortest
  by_cases hunits : a.units = 0
  · rw [if_pos hunits, ofDecimal_zero]
    exact (eq_signedZero (units_eq_zero_iff.mp hunits)).symm
  · rw [if_neg hunits, ofDecimal_normalize]
    generalize hfound : List.findSome? _ (List.range 17) = found
    cases found with
    | none =>
      exact ofDecimal_units h hunits (Nat.pow 5 1074) 1074 744 1384 (by decide +kernel)
        (by decide +kernel) (by decide) (by decide +kernel) (by decide) (by decide)
    | some d =>
      obtain ⟨extra, -, hextra⟩ := List.exists_of_findSome?_eq_some hfound
      obtain ⟨digits, hdigits, rfl⟩ := Option.map_eq_some_iff.mp hextra
      exact ofDecimal_of_digitsOnGrid hdigits

end Binary64

/-! ## JSON numbers -/

namespace Json.Number

theorem length_lowestDigits (k n : Nat) : (lowestDigits k n).length = k := by
  induction k generalizing n with
  | zero => rfl
  | succ k ih => rw [lowestDigits, List.length_append, ih, List.length_singleton]

/-- The lowest digits behind other ones are the rest of a number. -/
theorem foldl_lowestDigits (k n whole : Nat) :
    (lowestDigits k n).foldl (fun sum d => sum * 10 + d.val) whole =
      whole * tenPow k + n % tenPow k := by
  induction k generalizing n with
  | zero => simp [lowestDigits, Decimal.tenPow_eq, Nat.mod_one]
  | succ k ih =>
    have hrest : n % tenPow (k + 1) = n % 10 + 10 * (n / 10 % tenPow k) := by
      rw [Decimal.tenPow_eq, Nat.pow_succ, Nat.mul_comm, Nat.mod_mul, ← Decimal.tenPow_eq]
    have hpow : tenPow (k + 1) = tenPow k * 10 := Nat.pow_succ ..
    rw [lowestDigits, List.foldl_append, ih, hrest, hpow, List.foldl_cons, List.foldl_nil]
    show (whole * tenPow k + n / 10 % tenPow k) * 10 + n % 10 = _
    rw [Nat.add_mul, Nat.mul_assoc]
    omega

theorem digits_split (n k : Nat) : n / tenPow k * tenPow k + n % tenPow k = n :=
  Nat.div_add_mod' n _

/-- The spelling of a decimal stands for the same number. -/
theorem toBinary64_ofDecimal (d : Decimal) : (ofDecimal d).toBinary64 = Binary64.ofDecimal d := by
  obtain ⟨negative, digits, exponent⟩ := d
  unfold ofDecimal
  by_cases hpositional : positional ((Nat.toDigits 10 digits).length - 1 + exponent) = true
  · rw [if_pos hpositional]
    by_cases hplaces : (-exponent).toNat = 0
    · -- there is one digit behind the point, which is zero
      have hshift : digits * tenPow exponent.toNat * 10 = digits * tenPow (exponent.toNat + 1) := by
        rw [Decimal.tenPow_eq, Decimal.tenPow_eq, Nat.pow_succ, Nat.mul_assoc]
      have hexponent : (-1 : Int) + (exponent.toNat + 1 : Nat) = exponent := by omega
      simp only [hplaces, if_true, Decimal.tenPow_eq 0, Nat.pow_zero, Nat.div_one]
      show Binary64.ofDecimal (Decimal.mk negative (digits * tenPow exponent.toNat * 10) (-1)) = _
      rw [hshift, Binary64.ofDecimal_mul_tenPow, hexponent]
    · have hwhole : exponent.toNat = 0 := by omega
      have hexponent : (0 : Int) - (-exponent).toNat = exponent := by omega
      simp only [toBinary64, toDecimal, if_neg hplaces, foldl_lowestDigits, length_lowestDigits,
        hwhole, Decimal.tenPow_eq 0, Nat.pow_zero, Nat.mul_one, digits_split]
      show Binary64.ofDecimal (Decimal.mk negative digits (0 - (-exponent).toNat)) = _
      rw [hexponent]
  · have hlength := Nat.length_toDigits_pos (b := 10) (n := digits)
    have hexponent : ((Nat.toDigits 10 digits).length : Int) - 1 + exponent -
        ((Nat.toDigits 10 digits).length - 1 : Nat) = exponent := by omega
    rw [if_neg hpositional]
    simp only [toBinary64, toDecimal, foldl_lowestDigits, length_lowestDigits, digits_split]
    exact congrArg (fun e => Binary64.ofDecimal (Decimal.mk negative digits e)) hexponent

/-- **A finite number is read back from its spelling, and other ones have none.** -/
theorem toBinary64_ofBinary64? (a : Binary64) :
    (a.isFinite = true ∧ ∃ n, ofBinary64? a = some n ∧ n.toBinary64 = a) ∨
      (a.isFinite = false ∧ ofBinary64? a = none) := by
  unfold ofBinary64?
  cases h : a.isFinite with
  | false => exact .inr ⟨rfl, rfl⟩
  | true =>
    refine .inl ⟨rfl, _, rfl, ?_⟩
    rw [toBinary64_ofDecimal, Binary64.ofDecimal_shortest _ h]

end Json.Number

end Playthrough
