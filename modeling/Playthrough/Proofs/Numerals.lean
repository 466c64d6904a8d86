import Mathlib.Algebra.Ring.Nat
import Mathlib.Data.List.TakeDrop
import Mathlib.Data.Nat.Basic
import Playthrough.Json.Number
import Playthrough.Uuid

/-!
# Written numbers

A JSON number and an identifier are read back from their texts. A number has no end of its own:
it is read as far as its characters go, so what follows it must not look like more of it.

- `Json.Number.read_toChars`: a JSON number in front of what ends it is read back;
- `Uuid.ofHyphenated?_toChars`: an identifier is read back from its hyphenated text.
-/

namespace Playthrough

/-! ## Runs of characters -/

/-- A text whose first character, if it has one, is not of the kind `p`. -/
def StopsAt (p : Char → Bool) (cs : List Char) : Prop := ∀ c ∈ cs.head?, p c = false

/-- A run of characters of one kind is cut off where it stops. -/
theorem span_append {p : Char → Bool} {run rest : List Char} (hrun : ∀ c ∈ run, p c = true)
    (hrest : StopsAt p rest) : (run ++ rest).span p = (run, rest) := by
  have hstop : rest.takeWhile p = [] ∧ rest.dropWhile p = rest := by
    cases rest with
    | nil => exact ⟨rfl, rfl⟩
    | cons c cs =>
      have hc : p c = false := hrest c rfl
      exact ⟨List.takeWhile_cons_of_neg (by simp [hc]), List.dropWhile_cons_of_neg (by simp [hc])⟩
  rw [List.span_eq_takeWhile_dropWhile, List.takeWhile_append_of_pos hrun,
    List.dropWhile_append_of_pos hrun, hstop.1, hstop.2, List.append_nil]

theorem isDigit_of_mem_toDigits {n : Nat} {c : Char} (h : c ∈ Nat.toDigits 10 n) :
    c.isDigit = true :=
  Nat.isDigit_of_mem_toDigits (by decide) (by decide) h

theorem exists_toDigits_eq_cons (n : Nat) :
    ∃ d ds, Nat.toDigits 10 n = d :: ds ∧ d.isDigit = true := by
  cases hdigits : Nat.toDigits 10 n with
  | nil => exact absurd hdigits Nat.toDigits_ne_nil
  | cons d ds =>
    refine ⟨d, ds, rfl, isDigit_of_mem_toDigits (n := n) ?_⟩
    rw [hdigits]
    exact List.mem_cons_self

theorem isEmpty_toDigits (n : Nat) : (Nat.toDigits 10 n).isEmpty = false := by
  obtain ⟨d, ds, hdigits, -⟩ := exists_toDigits_eq_cons n
  rw [hdigits]
  rfl

/-- Only zero is written with a zero in front. -/
theorem head_toDigits_ne_zero (n : Nat) (h : 0 < n) : (Nat.toDigits 10 n).head? ≠ some '0' := by
  induction n using Nat.strong_induction_on with
  | _ n ih =>
    by_cases hsmall : n < 10
    · rw [Nat.toDigits_of_lt_base hsmall]
      intro hzero
      have := Nat.digitChar_eq_zero.mp (Option.some.inj hzero)
      omega
    · rw [Nat.toDigits_of_base_le (by decide) (Nat.le_of_not_lt hsmall),
        List.head?_append, Option.or_of_isSome (by simp [Nat.toDigits_ne_nil])]
      exact ih (n / 10) (by omega) (by omega)

/-! ## JSON numbers -/

namespace Json.Number

/-- What cannot be taken for more of a number that it follows. -/
def EndsNumber (rest : List Char) : Prop :=
  StopsAt (fun c => c.isDigit || c == '.' || c == 'e' || c == 'E') rest

theorem EndsNumber.head {c : Char} {cs : List Char} (h : EndsNumber (c :: cs)) :
    c.isDigit = false ∧ c ≠ '.' ∧ c ≠ 'e' ∧ c ≠ 'E' := by
  have hc := h c rfl
  simp only [Bool.or_eq_false_iff, beq_eq_false_iff_ne, ne_eq] at hc
  exact ⟨hc.1.1.1, hc.1.1.2, hc.1.2, hc.2⟩

theorem EndsNumber.stopsAt {rest : List Char} (h : EndsNumber rest) :
    StopsAt Char.isDigit rest := by
  cases rest with
  | nil => intro c hc; cases hc
  | cons c cs =>
    rintro _ ⟨⟩
    exact h.head.1

theorem digitOf_digitChar : ∀ d : Fin 10, digitOf d.val.digitChar = d := by decide

theorem isDigit_digitChar : ∀ d : Fin 10, d.val.digitChar.isDigit = true := by decide

theorem map_digitOf (ds : List (Fin 10)) : (ds.map fun d => d.val.digitChar).map digitOf = ds := by
  rw [List.map_map]
  exact List.map_id'' digitOf_digitChar ds

theorem stopsAt_exponentChars {rest : List Char} (e : Option Int) (h : EndsNumber rest) :
    StopsAt Char.isDigit (exponentChars e ++ rest) := by
  cases e with
  | none => exact h.stopsAt
  | some e => rintro _ ⟨⟩; rfl

theorem stopsAt_fractionChars {rest : List Char} (ds : List (Fin 10)) (e : Option Int)
    (h : EndsNumber rest) :
    StopsAt Char.isDigit (fractionChars ds ++ (exponentChars e ++ rest)) := by
  cases ds with
  | nil => exact stopsAt_exponentChars e h
  | cons d ds => rintro _ ⟨⟩; rfl

/-- An exponent is read back. -/
theorem readExponent_exponentChars {rest : List Char} (e : Option Int) (h : EndsNumber rest) :
    readExponent (exponentChars e ++ rest) = some (e, rest) := by
  cases e with
  | none =>
    cases rest with
    | nil => rfl
    | cons c cs =>
      obtain ⟨-, -, he, hE⟩ := h.head
      show (if c = 'e' ∨ c = 'E' then _ else some (none, c :: cs)) = _
      rw [if_neg (by rintro (hc | hc) <;> contradiction)]
  | some e =>
    have hspan := span_append (fun _ => isDigit_of_mem_toDigits (n := e.natAbs)) h.stopsAt
    have hsign : ∀ cs, Decimal.splitSign ((if e < 0 then '-' else '+') :: cs) =
        (decide (e < 0), cs) := by
      intro cs
      by_cases hneg : e < 0
      · rw [if_pos hneg, decide_eq_true hneg]; rfl
      · rw [if_neg hneg, decide_eq_false hneg]; rfl
    have hvalue : (if decide (e < 0) = true then -(e.natAbs : Int) else e.natAbs) = e := by
      by_cases hneg : e < 0
      · rw [if_pos (decide_eq_true hneg)]; omega
      · rw [if_neg (by simpa using hneg)]; omega
    show readExponent
      ('e' :: (if e < 0 then '-' else '+') :: (Nat.toDigits 10 e.natAbs ++ rest)) = _
    simp only [readExponent, hsign, hspan, isEmpty_toDigits, Nat.ofDigitChars_ten_toDigits, hvalue]
    rfl

/-- The digits behind a point are read back. -/
theorem readFraction_fractionChars {rest : List Char} (ds : List (Fin 10)) (e : Option Int)
    (h : EndsNumber rest) :
    readFraction (fractionChars ds ++ (exponentChars e ++ rest)) =
      some (ds, exponentChars e ++ rest) := by
  cases ds with
  | nil =>
    -- neither an exponent nor what ends the number begins with a point
    have hpoint : ∀ cs, exponentChars e ++ rest ≠ '.' :: cs := by
      intro cs heq
      cases e with
      | some e => exact absurd (List.cons.inj heq).1 (by decide)
      | none =>
        rw [show rest = '.' :: cs from heq] at h
        exact h.head.2.1 rfl
    show readFraction (exponentChars e ++ rest) = _
    generalize exponentChars e ++ rest = cs at hpoint
    unfold readFraction
    split
    · exact absurd rfl (hpoint _)
    · rfl
  | cons d ds =>
    have hdigits : ∀ c ∈ (d :: ds).map (fun d => d.val.digitChar), c.isDigit = true := by
      intro c hc
      obtain ⟨d, -, rfl⟩ := List.mem_map.mp hc
      exact isDigit_digitChar d
    have hspan := span_append hdigits (stopsAt_exponentChars e h)
    show readFraction ('.' :: ((d :: ds).map (fun d => d.val.digitChar) ++
      (exponentChars e ++ rest))) = _
    simp only [readFraction, hspan, map_digitOf]
    rfl

/-- Reads what follows the sign of a number. -/
def readUnsigned (negative : Bool) (cs : List Char) : Option (Number × List Char) := do
  let (digits, cs) := cs.span Char.isDigit
  if digits.isEmpty || digits.head? == some '0' && digits.length != 1 then none
  else
    let (fraction, cs) ← readFraction cs
    let (exponent, cs) ← readExponent cs
    return ({ negative, whole := Nat.ofDigitChars 10 digits 0, fraction, exponent }, cs)

/-- Only a minus sign in front of the digits is taken for one. -/
theorem read_signChars (negative : Bool) (whole : Nat) (cs : List Char) :
    read (Decimal.signChars negative ++ (Nat.toDigits 10 whole ++ cs)) =
      readUnsigned negative (Nat.toDigits 10 whole ++ cs) := by
  cases negative with
  | true => rfl
  | false =>
    obtain ⟨d, ds, hdigits, hd⟩ := exists_toDigits_eq_cons whole
    rw [hdigits]
    show read (d :: (ds ++ cs)) = readUnsigned false (d :: (ds ++ cs))
    unfold read
    split
    next heq =>
      split at heq
      · next hminus =>
        rw [(List.cons.inj hminus).1] at hd
        exact absurd hd (by decide)
      · obtain ⟨rfl, rfl⟩ := Prod.mk.inj heq
        rfl

/-- The whole part of a number is written without superfluous zeros. -/
theorem not_superfluous_toDigits (n : Nat) :
    ((Nat.toDigits 10 n).isEmpty || (Nat.toDigits 10 n).head? == some '0' &&
      (Nat.toDigits 10 n).length != 1) = false := by
  rcases Nat.eq_zero_or_pos n with rfl | hpos
  · decide
  · rw [isEmpty_toDigits, beq_eq_false_iff_ne.mpr (head_toDigits_ne_zero n hpos)]
    rfl

/-- **A number in front of what ends it is read back.** -/
theorem read_toChars (n : Number) {rest : List Char} (h : EndsNumber rest) :
    read (n.toChars ++ rest) = some (n, rest) := by
  obtain ⟨negative, whole, fraction, exponent⟩ := n
  have hspan := span_append (fun _ => isDigit_of_mem_toDigits (n := whole))
    (stopsAt_fractionChars fraction exponent h)
  have htext : toChars ⟨negative, whole, fraction, exponent⟩ ++ rest =
      Decimal.signChars negative ++ (Nat.toDigits 10 whole ++
        (fractionChars fraction ++ (exponentChars exponent ++ rest))) := by
    simp only [toChars, List.append_assoc]
  rw [htext, read_signChars]
  simp only [readUnsigned, hspan, not_superfluous_toDigits, readFraction_fractionChars _ _ h,
    Nat.ofDigitChars_ten_toDigits]
  show (readExponent (exponentChars exponent ++ rest)).bind _ = _
  rw [readExponent_exponentChars _ h]
  rfl

end Json.Number

/-! ## Hexadecimal digits -/

namespace Hexadecimal

theorem digit?_digitChar : ∀ d < 16, digit? (Nat.digitChar d) = some d := by decide

theorem nat?_append_singleton (cs : List Char) (c : Char) :
    nat? (cs ++ [c]) = (nat? cs).bind fun n => (digit? c).map fun d => n * 16 + d := by
  unfold nat?
  rw [List.mapM_append]
  cases cs.mapM digit? with
  | none => rfl
  | some ds =>
    cases hd : digit? c with
    | none => simp [hd]
    | some d => simp [hd, List.foldl_append]

/-- A number is read back from its digits. -/
theorem nat?_toDigits (n : Nat) : nat? (Nat.toDigits 16 n) = some n := by
  induction n using Nat.strong_induction_on with
  | _ n ih =>
    by_cases hsmall : n < 16
    · rw [Nat.toDigits_of_lt_base hsmall]
      show nat? ([] ++ [n.digitChar]) = some n
      rw [nat?_append_singleton, digit?_digitChar n hsmall]
      show some (0 * 16 + n) = some n
      rw [Nat.zero_mul, Nat.zero_add]
    · have hlast := Nat.mod_lt n (show 0 < 16 by decide)
      rw [Nat.toDigits_of_base_le (by decide) (Nat.le_of_not_lt hsmall), nat?_append_singleton,
        ih (n / 16) (by omega), digit?_digitChar _ hlast]
      exact congrArg some (Nat.div_add_mod' n 16)

/-- Zeros in front of a number do not count. -/
theorem nat?_zeros (k : Nat) (cs : List Char) : nat? (List.replicate k '0' ++ cs) = nat? cs := by
  induction k with
  | zero => rfl
  | succ k ih =>
    rw [← ih]
    unfold nat?
    rw [List.replicate_succ, List.cons_append, List.mapM_cons]
    show Option.map _ (Option.bind (some 0) _) = _
    cases List.mapM digit? (List.replicate k '0' ++ cs) with
    | none => rfl
    | some ds => rfl

/-- A number is spelled with digits only. -/
theorem isSome_digit?_of_nat? {cs : List Char} {n : Nat} (h : nat? cs = some n) :
    ∀ c ∈ cs, (digit? c).isSome = true := by
  obtain ⟨digits, hdigits, -⟩ := Option.map_eq_some_iff.mp h
  clear h
  induction cs generalizing digits with
  | nil => rintro _ ⟨⟩
  | cons c cs ih =>
    rw [List.mapM_cons] at hdigits
    obtain ⟨d, hd, hrest⟩ := Option.bind_eq_some_iff.mp hdigits
    obtain ⟨ds, hds, -⟩ := Option.bind_eq_some_iff.mp hrest
    rw [List.forall_mem_cons, hd]
    exact ⟨rfl, ih ds hds⟩

end Hexadecimal

/-! ## Identifiers -/

namespace Uuid

/-- A list is cut into the pieces that it was put together from. -/
theorem cut_flatten (pieces : List (List Char)) :
    cut (pieces.map List.length) pieces.flatten = pieces := by
  induction pieces with
  | nil => rfl
  | cons piece pieces ih =>
    show (piece ++ pieces.flatten).take piece.length ::
      cut (pieces.map List.length) ((piece ++ pieces.flatten).drop piece.length) = _
    rw [List.take_left, List.drop_left, ih]

/-- Pieces of the right total length leave nothing over. -/
theorem cut_lengths {lengths : List Nat} {cs : List Char} (h : lengths.sum = cs.length) :
    (cut lengths cs).map List.length = lengths ∧ (cut lengths cs).flatten = cs := by
  induction lengths generalizing cs with
  | nil =>
    have hnil : cs = [] := List.eq_nil_of_length_eq_zero h.symm
    subst hnil
    exact ⟨rfl, rfl⟩
  | cons n lengths ih =>
    rw [List.sum_cons] at h
    have hrest : lengths.sum = (cs.drop n).length := by
      rw [List.length_drop]
      omega
    obtain ⟨hlengths, hflatten⟩ := ih hrest
    constructor
    · show (cs.take n).length :: (cut lengths (cs.drop n)).map List.length = n :: lengths
      rw [hlengths, List.length_take, Nat.min_eq_left (by omega)]
    · show cs.take n ++ (cut lengths (cs.drop n)).flatten = cs
      rw [hflatten, List.take_append_drop]

/-- The thirty-two digits of an identifier. -/
def paddedDigits (id : Uuid) : List Char :=
  List.replicate (32 - (Nat.toDigits 16 id.value).length) '0' ++ Nat.toDigits 16 id.value

theorem length_paddedDigits (id : Uuid) : id.paddedDigits.length = 32 := by
  have hle : (Nat.toDigits 16 id.value).length ≤ 32 := by
    rw [Nat.length_toDigits_le_iff (by decide) (by decide)]
    exact id.value_lt
  rw [paddedDigits, List.length_append, List.length_replicate]
  omega

theorem nat?_paddedDigits (id : Uuid) : Hexadecimal.nat? id.paddedDigits = some id.value := by
  rw [paddedDigits, Hexadecimal.nat?_zeros, Hexadecimal.nat?_toDigits]

/-- The text of an identifier is its digits in five groups, with hyphens between them. -/
theorem toChars_groups (id : Uuid) :
    ∃ a b c d e, [a, b, c, d, e].map List.length = groupLengths ∧
      a ++ b ++ c ++ d ++ e = id.paddedDigits ∧
      id.toChars = [a, ['-'], b, ['-'], c, ['-'], d, ['-'], e].flatten := by
  have hlength : groupLengths.sum = id.paddedDigits.length := (length_paddedDigits id).symm
  obtain ⟨hlengths, hflatten⟩ := cut_lengths hlength
  obtain ⟨groups, hgroups⟩ : ∃ groups, cut groupLengths id.paddedDigits = groups := ⟨_, rfl⟩
  have htext : id.toChars = List.intercalate ['-'] groups := by rw [← hgroups]; rfl
  rw [hgroups] at hlengths hflatten
  obtain ⟨a, b, c, d, e, rfl⟩ : ∃ a b c d e, groups = [a, b, c, d, e] := by
    simp only [groupLengths, List.map_eq_cons_iff, List.map_eq_nil_iff] at hlengths
    obtain ⟨a, _, rfl, -, b, _, rfl, -, c, _, rfl, -, d, _, rfl, -, e, _, rfl, -, rfl⟩ := hlengths
    exact ⟨a, b, c, d, e, rfl⟩
  refine ⟨a, b, c, d, e, hlengths, ?_, htext⟩
  rw [← hflatten]
  simp

/-- **An identifier is read back from its hyphenated text.** -/
theorem ofHyphenated?_toChars (id : Uuid) : ofHyphenated? id.toChars = some id := by
  obtain ⟨a, b, c, d, e, hlengths, hdigits, htext⟩ := toChars_groups id
  have hid : ofNat id.value = id := by
    obtain ⟨value, hlt⟩ := id
    simp only [ofNat, Nat.mod_eq_of_lt hlt]
  -- the reader cuts the text into the groups and the hyphens between them
  have hcut := cut_flatten [a, ['-'], b, ['-'], c, ['-'], d, ['-'], e]
  simp only [groupLengths, List.map_cons, List.map_nil, List.cons.injEq, and_true] at hlengths
  simp only [List.map_cons, List.map_nil, hlengths, List.length_singleton] at hcut
  unfold ofHyphenated?
  rw [htext, hcut]
  show ofDigits? (a ++ b ++ c ++ d ++ e) = some id
  rw [hdigits]
  unfold ofDigits?
  rw [if_pos (length_paddedDigits id), nat?_paddedDigits, Option.map_some, hid]

end Uuid

end Playthrough
