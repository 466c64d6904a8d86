import Mathlib.Data.List.TakeDrop
import Mathlib.Data.Nat.Basic
import Mathlib.Tactic.SplitIfs
import Playthrough.Json.Reader
import Playthrough.Json.Writer
import Playthrough.Proofs.Numerals

/-!
# Texts of JSON values

What `Json.write` writes is one JSON value for `Json.read`, and the one that was written, in any
layout that adds nothing but blanks. So neither a character of a string nor the place of a value
among its neighbours can change what is read.

- `Json.readString_flatMap_escapedChar`: a string ends where it was ended, whatever is in it;
- `Json.read_write`: a value is read back from its text.
-/

namespace Playthrough

theorem Hexadecimal.char?_toNat (c : Char) : char? c.toNat = some c := by
  have hvalid : c.toNat.isValidChar := c.valid
  unfold char?
  rw [dif_pos hvalid]
  rfl

namespace Json

/-! ## Strings -/

theorem nat?_hexChar {n : Nat} (h : n < 32) :
    Hexadecimal.nat? ['0', '0', hexChar (n / 16), hexChar (n % 16)] = some n := by
  have hhigh := Hexadecimal.digit?_digitChar (n / 16) (by omega)
  have hlow := Hexadecimal.digit?_digitChar (n % 16) (by omega)
  show Hexadecimal.nat? ((['0', '0'] ++ [(n / 16).digitChar]) ++ [(n % 16).digitChar]) = some n
  rw [Hexadecimal.nat?_append_singleton, Hexadecimal.nat?_append_singleton, hhigh, hlow]
  show some ((0 * 16 + n / 16) * 16 + n % 16) = some n
  rw [Nat.zero_mul, Nat.zero_add, Nat.div_add_mod']

/-- A letter behind a backslash is read as what it stands for. -/
theorem readString_letter {letter char : Char} (h : unescape? letter = some char)
    (rest : List Char) :
    readString ('\\' :: letter :: rest) =
      (readString rest).map fun (s, rest) => (char :: s, rest) := by
  have hu : letter ≠ 'u' := by rintro rfl; cases h
  rw [readString]
  · rw [h]
    cases readString rest with
    | none => rfl
    | some p => rfl
  · intro _ _ _ _ _ heq
    exact absurd heq hu

/-- A code point behind a backslash is read as its character. -/
theorem readString_codePoint {a b c d char : Char}
    (h : Hexadecimal.nat? [a, b, c, d] = some char.toNat) (hlow : char.toNat < 32)
    (rest : List Char) :
    readString ('\\' :: 'u' :: a :: b :: c :: d :: rest) =
      (readString rest).map fun (s, rest) => (char :: s, rest) := by
  rw [readString, h]
  show (if 0xD800 ≤ char.toNat ∧ char.toNat < 0xDC00 then _ else _) = _
  rw [if_neg (by omega), Hexadecimal.char?_toNat]
  cases readString rest with
  | none => rfl
  | some p => rfl

/-- Any other character stands for itself. -/
theorem readString_cons {c : Char} (hquote : c ≠ '"') (hslash : c ≠ '\\') (hlow : ¬ c.toNat < 32)
    (rest : List Char) :
    readString (c :: rest) = (readString rest).map fun (s, rest) => (c :: s, rest) := by
  rw [readString]
  · rw [if_neg (by rintro (h | h) <;> contradiction)]
    cases readString rest with
    | none => rfl
    | some p => rfl
  · exact hquote
  · intro _ _ _ _ _ heq
    exact absurd heq hslash
  · intro _ _ heq
    exact absurd heq hslash

/-- A character is read back from what is written for it. -/
theorem readString_escapedChar (c : Char) (rest : List Char) :
    readString (escapedChar c ++ rest) = (readString rest).map fun (s, rest) => (c :: s, rest) := by
  unfold escapedChar
  split_ifs with hquote hslash hback htab hline hform hreturn hlow
  · rw [hquote]; exact readString_letter rfl rest
  · rw [hslash]; exact readString_letter rfl rest
  · rw [hback]; exact readString_letter rfl rest
  · rw [htab]; exact readString_letter rfl rest
  · rw [hline]; exact readString_letter rfl rest
  · rw [hform]; exact readString_letter rfl rest
  · rw [hreturn]; exact readString_letter rfl rest
  · exact readString_codePoint (nat?_hexChar hlow) hlow rest
  · exact readString_cons hquote hslash hlow rest

/-- **A string is read up to the quote that ends it.** -/
theorem readString_flatMap_escapedChar (cs rest : List Char) :
    readString (cs.flatMap escapedChar ++ '"' :: rest) = some (cs, rest) := by
  induction cs with
  | nil => rw [List.flatMap_nil, List.nil_append, readString]
  | cons c cs ih =>
    rw [List.flatMap_cons, List.append_assoc, readString_escapedChar, ih]
    rfl

theorem stringChars_append (s : String) (rest : List Char) :
    stringChars s ++ rest = '"' :: (s.toList.flatMap escapedChar ++ '"' :: rest) := by
  simp [stringChars]

/-! ## Blanks -/

theorem skipBlanks_append {blanks : List Char} (h : ∀ c ∈ blanks, isBlank c = true)
    (cs : List Char) : skipBlanks (blanks ++ cs) = skipBlanks cs :=
  List.dropWhile_append_of_pos h

theorem skipBlanks_cons {c : Char} (h : isBlank c = false) (cs : List Char) :
    skipBlanks (c :: cs) = c :: cs :=
  List.dropWhile_cons_of_neg (by rw [h]; decide)

theorem readValue_blanks {blanks : List Char} (h : ∀ c ∈ blanks, isBlank c = true) (fuel : Nat)
    (cs : List Char) : readValue fuel (blanks ++ cs) = readValue fuel cs := by
  cases fuel with
  | zero => rfl
  | succ fuel => rw [readValue, readValue, skipBlanks_append h]

/-- A layout that adds nothing but blanks. -/
structure Layout.AddsBlanks (l : Layout) : Prop where
  /-- In front of an item. -/
  gap : ∀ depth, ∀ c ∈ l.gap depth, isBlank c = true
  /-- Behind a colon. -/
  colon : ∃ blanks, l.colon = ':' :: blanks ∧ ∀ c ∈ blanks, isBlank c = true

theorem Layout.indented_addsBlanks : Layout.indented.AddsBlanks where
  gap depth := by
    intro c hc
    rcases List.mem_cons.mp hc with rfl | hc
    · rfl
    · rw [List.eq_of_mem_replicate hc]
      rfl
  colon := by
    refine ⟨[' '], rfl, ?_⟩
    intro c hc
    rw [List.mem_singleton.mp hc]
    rfl

/-! ## Ends of values -/

theorem endsNumber_cons {c : Char} (h : isBlank c = true ∨ c = ',' ∨ c = ']' ∨ c = '\x7d')
    (cs : List Char) : Number.EndsNumber (c :: cs) := by
  have hkinds : c = ' ' ∨ c = '\n' ∨ c = '\t' ∨ c = '\r' ∨ c = ',' ∨ c = ']' ∨ c = '\x7d' := by
    simpa [isBlank, or_assoc] using h
  rintro _ ⟨⟩
  rcases hkinds with rfl | rfl | rfl | rfl | rfl | rfl | rfl <;> rfl

theorem endsNumber_blanks {blanks : List Char} (hblanks : ∀ c ∈ blanks, isBlank c = true) {c : Char}
    (h : c = ',' ∨ c = ']' ∨ c = '\x7d') (cs : List Char) :
    Number.EndsNumber (blanks ++ c :: cs) := by
  cases blanks with
  | nil => exact endsNumber_cons (.inr h) cs
  | cons blank blanks => exact endsNumber_cons (.inl (hblanks blank List.mem_cons_self)) _

theorem endsNumber_writeItems {l : Layout} (hl : l.AddsBlanks) (depth : Nat) (vs : List Json)
    (rest : List Char) : Number.EndsNumber (writeItems l depth vs ++ rest) := by
  cases vs with
  | nil =>
    rw [writeItems, List.append_assoc]
    exact endsNumber_blanks (hl.gap depth) (.inr (.inl rfl)) rest
  | cons v vs =>
    rw [writeItems]
    exact endsNumber_cons (.inr (.inl rfl)) _

theorem endsNumber_writeMembers {l : Layout} (hl : l.AddsBlanks) (depth : Nat)
    (ms : List (String × Json)) (rest : List Char) :
    Number.EndsNumber (writeMembers l depth ms ++ rest) := by
  cases ms with
  | nil =>
    rw [writeMembers, List.append_assoc]
    exact endsNumber_blanks (hl.gap depth) (.inr (.inr rfl)) rest
  | cons m ms =>
    rw [writeMembers]
    exact endsNumber_cons (.inr (.inl rfl)) _

/-! ## Beginnings of values -/

/-- A number begins with a digit or with a minus sign. -/
theorem toChars_head (n : Number) : ∃ c cs, n.toChars = c :: cs ∧ (c = '-' ∨ c.isDigit = true) := by
  obtain ⟨negative, whole, fraction, exponent⟩ := n
  cases negative with
  | true => exact ⟨_, _, rfl, .inl rfl⟩
  | false =>
    obtain ⟨d, ds, hdigits, hd⟩ := exists_toDigits_eq_cons whole
    refine ⟨d, ds ++ Number.fractionChars fraction ++ Number.exponentChars exponent, ?_, .inr hd⟩
    show Nat.toDigits 10 whole ++ _ ++ _ = _
    rw [hdigits]
    rfl

/-- A character that no number begins with. -/
theorem ne_of_number_head {c d : Char} (h : c = '-' ∨ c.isDigit = true) (hminus : d ≠ '-')
    (hdigit : d.isDigit = false) : c ≠ d := by
  rintro rfl
  rcases h with h | h
  · exact hminus h
  · rw [h] at hdigit; cases hdigit

/-- A value begins with a character of its own, not with a blank or the end of an array. -/
theorem writeAt_head (l : Layout) (depth : Nat) (v : Json) :
    ∃ c cs, writeAt l depth v = c :: cs ∧ isBlank c = false ∧ c ≠ ']' := by
  cases v with
  | null => exact ⟨_, _, by rw [writeAt], rfl, by decide⟩
  | bool b => cases b <;> exact ⟨_, _, by rw [writeAt], rfl, by decide⟩
  | number n =>
    obtain ⟨c, cs, htext, hc⟩ := toChars_head n
    refine ⟨c, cs, by rw [writeAt, htext], ?_, ne_of_number_head hc (by decide) (by decide)⟩
    simp only [isBlank, Bool.or_eq_false_iff, beq_eq_false_iff_ne]
    refine ⟨⟨⟨?_, ?_⟩, ?_⟩, ?_⟩ <;> exact ne_of_number_head hc (by decide) (by decide)
  | string s => exact ⟨_, _, by rw [writeAt, stringChars], rfl, by decide⟩
  | array vs => cases vs <;> exact ⟨_, _, by rw [writeAt], rfl, by decide⟩
  | object ms => cases ms <;> exact ⟨_, _, by rw [writeAt], rfl, by decide⟩

/-! ## Parts of values -/

theorem readValue_number {c : Char} (h : c = '-' ∨ c.isDigit = true) (fuel : Nat)
    (cs : List Char) :
    readValue (fuel + 1) (c :: cs) =
      (Number.read (c :: cs)).map fun (n, rest) => (.number n, rest) := by
  have hblank : isBlank c = false := by
    simp only [isBlank, Bool.or_eq_false_iff, beq_eq_false_iff_ne]
    refine ⟨⟨⟨?_, ?_⟩, ?_⟩, ?_⟩ <;> exact ne_of_number_head h (by decide) (by decide)
  rw [readValue, skipBlanks_cons hblank]
  split
  case h_7 => rfl
  all_goals
    next heq => exact absurd (List.cons.inj heq).1 (ne_of_number_head h (by decide) (by decide))

theorem readValue_string (fuel : Nat) (s : String) (rest : List Char) :
    readValue (fuel + 1) (stringChars s ++ rest) = some (.string s, rest) := by
  rw [stringChars_append, readValue, skipBlanks_cons rfl]
  show (readString _).map _ = _
  rw [readString_flatMap_escapedChar]
  show some (Json.string (String.ofList s.toList), rest) = _
  rw [String.ofList_toList]

theorem readValue_array {c : Char} {cs blanks : List Char}
    (hblanks : ∀ c ∈ blanks, isBlank c = true) (hc : isBlank c = false) (hclose : c ≠ ']')
    (fuel : Nat) :
    readValue (fuel + 1) ('[' :: (blanks ++ c :: cs)) =
      (readItems fuel (c :: cs)).map fun (items, rest) => (Json.array items, rest) := by
  rw [readValue, skipBlanks_cons rfl]
  simp only [skipBlanks_append hblanks, skipBlanks_cons hc]
  split
  · next heq => exact absurd (List.cons.inj heq).1 hclose
  · rfl

theorem readValue_object {cs blanks : List Char} (hblanks : ∀ c ∈ blanks, isBlank c = true)
    (fuel : Nat) :
    readValue (fuel + 1) ('\x7b' :: (blanks ++ '"' :: cs)) =
      (readMembers fuel ('"' :: cs)).map fun (members, rest) => (Json.object members, rest) := by
  rw [readValue, skipBlanks_cons rfl]
  simp only [skipBlanks_append hblanks, skipBlanks_cons (c := '"') rfl]
  rfl

/-- What follows an item of an array: further items behind a comma, or the closing bracket. -/
def readMoreItems (fuel : Nat) (cs : List Char) : Option (List Json × List Char) :=
  match skipBlanks cs with
  | ',' :: rest => readItems fuel rest
  | ']' :: rest => some ([], rest)
  | _ => none

theorem readItems_succ (fuel : Nat) (cs : List Char) :
    readItems (fuel + 1) cs = (do
      let (v, rest) ← readValue fuel cs
      let (vs, rest) ← readMoreItems fuel rest
      return (v :: vs, rest)) := by
  rw [readItems]
  cases readValue fuel cs with
  | none => rfl
  | some p =>
    obtain ⟨v, rest⟩ := p
    show (match skipBlanks rest with
      | ',' :: rest => _
      | ']' :: rest => _
      | _ => _) = (readMoreItems fuel rest).bind _
    unfold readMoreItems
    split <;> rfl

/-- What follows a member of an object: further members behind a comma, or the closing bracket. -/
def readMoreMembers (fuel : Nat) (cs : List Char) : Option (List (String × Json) × List Char) :=
  match skipBlanks cs with
  | ',' :: rest => readMembers fuel rest
  | '\x7d' :: rest => some ([], rest)
  | _ => none

theorem readMembers_succ {l : Layout} (hl : l.AddsBlanks) (fuel : Nat) (name : String)
    (cs : List Char) :
    readMembers (fuel + 1) (stringChars name ++ (l.colon ++ cs)) = (do
      let (v, rest) ← readValue fuel cs
      let (ms, rest) ← readMoreMembers fuel rest
      return ((name, v) :: ms, rest)) := by
  obtain ⟨blanks, hcolon, hblanks⟩ := hl.colon
  rw [stringChars_append, hcolon, List.cons_append, readMembers, skipBlanks_cons rfl]
  show (readString _).bind _ = _
  rw [readString_flatMap_escapedChar, Option.bind_some]
  simp only [skipBlanks_cons (c := ':') rfl, readValue_blanks hblanks, String.ofList_toList]
  cases readValue fuel cs with
  | none => rfl
  | some p =>
    obtain ⟨v, rest⟩ := p
    show (match skipBlanks rest with
      | ',' :: rest => _
      | '\x7d' :: rest => _
      | _ => _) = (readMoreMembers fuel rest).bind _
    unfold readMoreMembers
    split <;> rfl

/-- Items are read if the first one and the further ones are. -/
theorem readItems_of_read {fuel : Nat} {cs middle rest : List Char} {v : Json} {vs : List Json}
    (hv : readValue fuel cs = some (v, middle))
    (hvs : readMoreItems fuel middle = some (vs, rest)) :
    readItems (fuel + 1) cs = some (v :: vs, rest) := by
  rw [readItems_succ, hv]
  show (readMoreItems fuel middle).bind _ = _
  rw [hvs]
  rfl

/-- Members are read if the first value and the further members are. -/
theorem readMembers_of_read {l : Layout} (hl : l.AddsBlanks) {fuel : Nat} (name : String)
    {cs middle rest : List Char} {v : Json} {ms : List (String × Json)}
    (hv : readValue fuel cs = some (v, middle))
    (hms : readMoreMembers fuel middle = some (ms, rest)) :
    readMembers (fuel + 1) (stringChars name ++ (l.colon ++ cs)) =
      some ((name, v) :: ms, rest) := by
  rw [readMembers_succ hl, hv]
  show (readMoreMembers fuel middle).bind _ = _
  rw [hms]
  rfl

theorem readItems_blanks {blanks : List Char} (h : ∀ c ∈ blanks, isBlank c = true) (fuel : Nat)
    (cs : List Char) : readItems fuel (blanks ++ cs) = readItems fuel cs := by
  cases fuel with
  | zero => rfl
  | succ fuel => rw [readItems_succ, readItems_succ, readValue_blanks h]

theorem readMembers_blanks {blanks : List Char} (h : ∀ c ∈ blanks, isBlank c = true) (fuel : Nat)
    (cs : List Char) : readMembers fuel (blanks ++ cs) = readMembers fuel cs := by
  cases fuel with
  | zero => rfl
  | succ fuel => rw [readMembers, readMembers, skipBlanks_append h]

/-! ## Values -/

variable {l : Layout}

mutual

/-- A value is read back in front of what ends a number. Each level of it takes two calls and at
least one character, hence the bound on the fuel. -/
theorem readValue_writeAt (hl : l.AddsBlanks) : ∀ (v : Json) (depth : Nat) {fuel : Nat}
    {rest : List Char}, 2 * (writeAt l depth v).length ≤ fuel → Number.EndsNumber rest →
    readValue fuel (writeAt l depth v ++ rest) = some (v, rest)
  | .null, _, fuel, _, hfuel, _ => by
    rw [writeAt] at hfuel ⊢
    obtain _ | fuel := fuel
    · exact absurd hfuel (by decide)
    rfl
  | .bool b, _, fuel, _, hfuel, _ => by
    cases b <;>
    · rw [writeAt] at hfuel ⊢
      obtain _ | fuel := fuel
      · exact absurd hfuel (by decide)
      rfl
  | .number n, _, fuel, rest, hfuel, hrest => by
    obtain ⟨c, cs, htext, hc⟩ := toChars_head n
    rw [writeAt, htext] at hfuel
    obtain _ | fuel := fuel
    · exact absurd hfuel (by simp)
    have hread := Number.read_toChars n hrest
    rw [htext, List.cons_append] at hread
    rw [writeAt, htext, List.cons_append, readValue_number hc, hread]
    rfl
  | .string s, _, fuel, rest, hfuel, _ => by
    rw [writeAt, stringChars] at hfuel
    obtain _ | fuel := fuel
    · exact absurd hfuel (by simp)
    rw [writeAt, readValue_string]
  | .array [], _, fuel, _, hfuel, _ => by
    rw [writeAt] at hfuel ⊢
    obtain _ | fuel := fuel
    · exact absurd hfuel (by decide)
    rfl
  | .array (v :: vs), depth, fuel, rest, hfuel, _ => by
    rw [writeAt] at hfuel ⊢
    simp only [List.length_cons, List.length_append] at hfuel
    obtain _ | _ | fuel := fuel
    · omega
    · omega
    have hv : readValue fuel (writeAt l (depth + 1) v ++ (writeItems l depth vs ++ rest)) =
        some (v, writeItems l depth vs ++ rest) :=
      readValue_writeAt hl v (depth + 1) (by omega) (endsNumber_writeItems hl depth vs rest)
    have hvs : readMoreItems fuel (writeItems l depth vs ++ rest) = some (vs, rest) :=
      readMoreItems_writeItems hl vs depth (by omega)
    have hitems := readItems_of_read hv hvs
    obtain ⟨c, cs, hhead, hblank, hclose⟩ := writeAt_head l (depth + 1) v
    rw [hhead, List.cons_append] at hitems
    rw [hhead, List.cons_append, List.append_assoc, List.append_assoc, List.cons_append,
      readValue_array (hl.gap _) hblank hclose, hitems]
    rfl
  | .object [], _, fuel, _, hfuel, _ => by
    rw [writeAt] at hfuel ⊢
    obtain _ | fuel := fuel
    · exact absurd hfuel (by decide)
    rfl
  | .object ((name, v) :: ms), depth, fuel, rest, hfuel, _ => by
    rw [writeAt] at hfuel ⊢
    simp only [List.length_cons, List.length_append] at hfuel
    obtain _ | _ | fuel := fuel
    · omega
    · omega
    have hv : readValue fuel (writeAt l (depth + 1) v ++ (writeMembers l depth ms ++ rest)) =
        some (v, writeMembers l depth ms ++ rest) :=
      readValue_writeAt hl v (depth + 1) (by omega) (endsNumber_writeMembers hl depth ms rest)
    have hms : readMoreMembers fuel (writeMembers l depth ms ++ rest) = some (ms, rest) :=
      readMoreMembers_writeMembers hl ms depth (by omega)
    have hmembers := readMembers_of_read hl name hv hms
    rw [stringChars_append] at hmembers
    simp only [List.cons_append, List.append_assoc, stringChars_append]
    rw [readValue_object (hl.gap _), hmembers]
    rfl

/-- The items behind the first one are read back with the closing bracket of their array. -/
theorem readMoreItems_writeItems (hl : l.AddsBlanks) : ∀ (vs : List Json) (depth : Nat) {fuel : Nat}
    {rest : List Char}, 2 * (writeItems l depth vs).length ≤ fuel →
    readMoreItems fuel (writeItems l depth vs ++ rest) = some (vs, rest)
  | [], depth, fuel, rest, _ => by
    rw [writeItems, List.append_assoc]
    unfold readMoreItems
    rw [skipBlanks_append (hl.gap depth)]
    rfl
  | v :: vs, depth, fuel, rest, hfuel => by
    rw [writeItems] at hfuel ⊢
    simp only [List.length_cons, List.length_append] at hfuel
    obtain _ | fuel := fuel
    · omega
    have hv : readValue fuel (writeAt l (depth + 1) v ++ (writeItems l depth vs ++ rest)) =
        some (v, writeItems l depth vs ++ rest) :=
      readValue_writeAt hl v (depth + 1) (by omega) (endsNumber_writeItems hl depth vs rest)
    have hvs : readMoreItems fuel (writeItems l depth vs ++ rest) = some (vs, rest) :=
      readMoreItems_writeItems hl vs depth (by omega)
    unfold readMoreItems
    rw [List.cons_append, List.append_assoc, List.append_assoc, skipBlanks_cons rfl]
    show readItems (fuel + 1) _ = _
    rw [readItems_blanks (hl.gap _), readItems_of_read hv hvs]

/-- The members behind the first one are read back with the closing brace of their object. -/
theorem readMoreMembers_writeMembers (hl : l.AddsBlanks) : ∀ (ms : List (String × Json))
    (depth : Nat) {fuel : Nat} {rest : List Char}, 2 * (writeMembers l depth ms).length ≤ fuel →
    readMoreMembers fuel (writeMembers l depth ms ++ rest) = some (ms, rest)
  | [], depth, fuel, rest, _ => by
    rw [writeMembers, List.append_assoc]
    unfold readMoreMembers
    rw [skipBlanks_append (hl.gap depth)]
    rfl
  | (name, v) :: ms, depth, fuel, rest, hfuel => by
    rw [writeMembers] at hfuel ⊢
    simp only [List.length_cons, List.length_append] at hfuel
    obtain _ | fuel := fuel
    · omega
    have hv : readValue fuel (writeAt l (depth + 1) v ++ (writeMembers l depth ms ++ rest)) =
        some (v, writeMembers l depth ms ++ rest) :=
      readValue_writeAt hl v (depth + 1) (by omega) (endsNumber_writeMembers hl depth ms rest)
    have hms : readMoreMembers fuel (writeMembers l depth ms ++ rest) = some (ms, rest) :=
      readMoreMembers_writeMembers hl ms depth (by omega)
    unfold readMoreMembers
    simp only [List.cons_append, List.append_assoc]
    rw [skipBlanks_cons rfl]
    show readMembers (fuel + 1) _ = _
    rw [readMembers_blanks (hl.gap _), readMembers_of_read hl name hv hms]

end

/-- **A value is read back from its text.** -/
theorem read_write (hl : l.AddsBlanks) (v : Json) : read (v.write l) = some v := by
  have hend : Number.EndsNumber [] := by rintro _ ⟨⟩
  have hread := readValue_writeAt hl v 0 (Nat.le_add_right _ 2) hend
  rw [List.append_nil] at hread
  show ofChars? (String.ofList (writeAt l 0 v)).toList = some v
  rw [String.toList_ofList]
  show (readValue _ _).bind _ = _
  rw [hread]
  rfl

end Json

end Playthrough
