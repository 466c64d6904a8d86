import Playthrough.Proofs.Flattening
import Playthrough.Proofs.Values
import Playthrough.ReadingOrder

/-!
# The reading order is the only one

The total order of binary64 numbers puts a number before another one if it has the lesser value,
a negative zero before the positive one, and the NaNs at both ends. With it every two segments
are in an order or at the same place, whatever their numbers are. The segments of a score in
reading order, those at the same place as they are listed, are then one list only.

- `Binary64.precedes_iff`: the total order by its rules is the order of `Binary64.totalRank`;
- `Segment.ReadBefore`, `Segment.SamePlace`: the reading order of two segments, by its rules;
- `stableSort_iff`: sorting by a key gives the only list that is sorted and keeps its ties;
- `sortReadingOrder_is_the_reading_order`: what this means for scores.
-/

namespace Playthrough

/-! ## The total order -/

namespace Binary64

/-- The total order of the standard, by its rules. -/
inductive Precedes : Binary64 → Binary64 → Prop
  /-- Numbers are in the order of their values. -/
  | less {a b : Binary64} (h : a < b) : Precedes a b
  /-- The zeros have the same value, but are told apart. -/
  | zeros : Precedes (signedZero true) (signedZero false)
  /-- A NaN with a minus sign comes before all numbers. -/
  | nanFirst {a b : Binary64} (ha : a.isNaN = true) (hsign : a.negative = true)
      (hb : b.isNaN = false) : Precedes a b
  /-- A NaN without a minus sign comes behind all numbers. -/
  | nanLast {a b : Binary64} (ha : a.isNaN = false) (hb : b.isNaN = true)
      (hsign : b.negative = false) : Precedes a b
  /-- A NaN with a minus sign comes before one without. -/
  | nanSigns {a b : Binary64} (ha : a.isNaN = true) (hsign : a.negative = true)
      (hb : b.isNaN = true) (hsign' : b.negative = false) : Precedes a b
  /-- NaNs without a minus sign are in the order of their bits. -/
  | nanBits {a b : Binary64} (ha : a.isNaN = true) (hsign : a.negative = false)
      (hsign' : b.negative = false) (h : a.magnitude < b.magnitude) : Precedes a b
  /-- NaNs with a minus sign are in the opposite order. -/
  | nanBitsBack {a b : Binary64} (hb : b.isNaN = true) (hsign : a.negative = true)
      (hsign' : b.negative = true) (h : b.magnitude < a.magnitude) : Precedes a b

variable {a b : Binary64}

theorem isNaN_iff : a.isNaN = true ↔ infinityMagnitude < a.magnitude := decide_eq_true_iff

theorem isNaN_eq_false_iff : a.isNaN = false ↔ a.magnitude ≤ infinityMagnitude := by
  rw [isNaN, decide_eq_false_iff_not, Nat.not_lt]

theorem totalRank_of_negative (h : a.negative = true) : a.totalRank = -(a.magnitude : Int) - 1 :=
  if_pos h

theorem totalRank_of_positive (h : a.negative = false) : a.totalRank = a.magnitude :=
  if_neg (by simp [h])

theorem totalRank_le (a : Binary64) : a.totalRank ≤ a.magnitude := by
  cases h : a.negative with
  | true =>
    rw [totalRank_of_negative h]
    omega
  | false => rw [totalRank_of_positive h]

theorem le_totalRank (a : Binary64) : -(a.magnitude : Int) - 1 ≤ a.totalRank := by
  cases h : a.negative with
  | true => rw [totalRank_of_negative h]
  | false =>
    rw [totalRank_of_positive h]
    omega

/-- Numbers that are not in the order of their values are the two zeros. -/
theorem precedes_of_isNaN_eq_false (ha : a.isNaN = false) (hb : b.isNaN = false)
    (h : a.totalRank < b.totalRank) : a.Precedes b := by
  by_cases hlt : a.rank < b.rank
  · exact .less ⟨ha, hb, hlt⟩
  · have hzeros : a.magnitude = 0 ∧ b.magnitude = 0 ∧ a.negative = true ∧ b.negative = false := by
      unfold rank at hlt
      unfold totalRank at h
      grind
    obtain ⟨hzero, hzero', hsign, hsign'⟩ := hzeros
    rw [eq_signedZero hzero, eq_signedZero hzero', hsign, hsign']
    exact .zeros

/-- **The total order by its rules is the order of the places in it.** -/
theorem precedes_iff : a.Precedes b ↔ a.totalRank < b.totalRank := by
  constructor
  · intro h
    cases h with
    | less h => exact totalRank_lt_of_lt h
    | zeros => decide
    | nanFirst ha hsign hb =>
      have hlt := isNaN_iff.mp ha
      have hle := isNaN_eq_false_iff.mp hb
      have hrank := le_totalRank b
      rw [totalRank_of_negative hsign]
      omega
    | nanLast ha hb hsign =>
      have hle := isNaN_eq_false_iff.mp ha
      have hlt := isNaN_iff.mp hb
      have hrank := totalRank_le a
      rw [totalRank_of_positive hsign]
      omega
    | nanSigns _ hsign _ hsign' =>
      rw [totalRank_of_negative hsign, totalRank_of_positive hsign']
      omega
    | nanBits _ hsign hsign' h =>
      rw [totalRank_of_positive hsign, totalRank_of_positive hsign']
      exact Int.ofNat_lt.mpr h
    | nanBitsBack _ hsign hsign' h =>
      rw [totalRank_of_negative hsign, totalRank_of_negative hsign']
      omega
  · intro h
    cases ha : a.isNaN with
    | false =>
      cases hb : b.isNaN with
      | false => exact precedes_of_isNaN_eq_false ha hb h
      | true =>
        have hle := isNaN_eq_false_iff.mp ha
        have hlt := isNaN_iff.mp hb
        have hrank := le_totalRank a
        -- nothing but a NaN comes before a NaN with a minus sign
        cases hsign : b.negative with
        | false => exact .nanLast ha hb hsign
        | true =>
          rw [totalRank_of_negative hsign] at h
          omega
    | true =>
      have hlt := isNaN_iff.mp ha
      have hrank := totalRank_le b
      cases hsign : a.negative with
      | true =>
        cases hb : b.isNaN with
        | false => exact .nanFirst ha hsign hb
        | true =>
          cases hsign' : b.negative with
          | false => exact .nanSigns ha hsign hb hsign'
          | true =>
            rw [totalRank_of_negative hsign, totalRank_of_negative hsign'] at h
            exact .nanBitsBack hb hsign hsign' (by omega)
      | false =>
        rw [totalRank_of_positive hsign] at h
        -- what comes behind is greater than all numbers
        cases hsign' : b.negative with
        | false => exact .nanBits ha hsign hsign' (by omega)
        | true =>
          rw [totalRank_of_negative hsign'] at h
          omega

end Binary64

/-! ## The order of two segments -/

namespace Segment

/-- A segment is read before another one: it is on an earlier page, or higher up on the same page,
or further to the left at the same height. -/
inductive ReadBefore (a b : Segment) : Prop
  | page (h : a.page < b.page)
  | top (hpage : a.page = b.page) (h : a.region.y.Precedes b.region.y)
  | left (hpage : a.page = b.page) (hy : a.region.y = b.region.y)
      (h : a.region.x.Precedes b.region.x)

/-- Two segments are at the same place: on the same page, with the same top left corner. -/
structure SamePlace (a b : Segment) : Prop where
  page : a.page = b.page
  y : a.region.y = b.region.y
  x : a.region.x = b.region.x

instance (a b : Segment) : Decidable (a.SamePlace b) :=
  decidable_of_iff (a.page = b.page ∧ a.region.y = b.region.y ∧ a.region.x = b.region.x)
    ⟨fun h => ⟨h.1, h.2.1, h.2.2⟩, fun h => ⟨h.page, h.y, h.x⟩⟩

/-- What a segment is sorted by. -/
def readingKey (s : Segment) : ℕ ×ₗ ℤ ×ₗ ℤ :=
  toLex (s.page, toLex (s.region.y.totalRank, s.region.x.totalRank))

variable {a b : Segment}

theorem readsBefore_eq (a b : Segment) :
    a.readsBefore b = decide (a.readingKey < b.readingKey) := by
  refine decide_eq_decide.mpr ?_
  rw [readingKey, readingKey, Prod.Lex.toLex_lt_toLex, Prod.Lex.toLex_lt_toLex]

/-- The rules order segments by what they are sorted by. -/
theorem readBefore_iff : a.ReadBefore b ↔ a.readingKey < b.readingKey := by
  rw [readingKey, readingKey, Prod.Lex.toLex_lt_toLex, Prod.Lex.toLex_lt_toLex]
  constructor
  · intro h
    cases h with
    | page h => exact .inl h
    | top hpage h => exact .inr ⟨hpage, .inl (Binary64.precedes_iff.mp h)⟩
    | left hpage hy h =>
      exact .inr ⟨hpage, .inr ⟨congrArg Binary64.totalRank hy, Binary64.precedes_iff.mp h⟩⟩
  · rintro (h | ⟨hpage, h | ⟨hy, h⟩⟩)
    · exact .page h
    · exact .top hpage (Binary64.precedes_iff.mpr h)
    · exact .left hpage (Binary64.totalRank_inj.mp hy) (Binary64.precedes_iff.mpr h)

theorem samePlace_iff : a.SamePlace b ↔ b.readingKey = a.readingKey := by
  simp only [readingKey, toLex_inj, Prod.mk.injEq, Binary64.totalRank_inj]
  constructor
  · rintro ⟨hpage, hy, hx⟩
    exact ⟨hpage.symm, hy.symm, hx.symm⟩
  · rintro ⟨hpage, hy, hx⟩
    exact ⟨hpage.symm, hy.symm, hx.symm⟩

/-- Two segments that are not at the same place are read one before the other, and not both
ways. -/
theorem not_samePlace_iff : ¬ a.SamePlace b ↔
    (a.ReadBefore b ∧ ¬ b.ReadBefore a) ∨ (b.ReadBefore a ∧ ¬ a.ReadBefore b) := by
  rw [samePlace_iff, readBefore_iff, readBefore_iff]
  constructor
  · intro h
    rcases lt_or_gt_of_ne h with hlt | hlt
    · exact .inr ⟨hlt, lt_asymm hlt⟩
    · exact .inl ⟨hlt, lt_asymm hlt⟩
  · rintro (⟨hlt, -⟩ | ⟨hlt, -⟩)
    · exact ne_of_gt hlt
    · exact ne_of_lt hlt

theorem ReadBefore.trans {c : Segment} (h : a.ReadBefore b) (h' : b.ReadBefore c) :
    a.ReadBefore c :=
  readBefore_iff.mpr (lt_trans (readBefore_iff.mp h) (readBefore_iff.mp h'))

end Segment

/-! ## Sorted lists -/

/-- **Sorting by a key gives the only list that is sorted and keeps its ties.** -/
theorem stableSort_iff {α κ : Type} [LinearOrder κ] (key : α → κ) (l m : List α) :
    m = stableSort (fun a b => decide (key a < key b)) l ↔
      m.Perm l ∧ (m.Pairwise fun a b => key a ≤ key b) ∧
        ∀ a ∈ l, (m.filter fun b => key b = key a) = l.filter fun b => key b = key a := by
  have hsorted := stableSort_pairwise key l
  have hperm := stableSort_perm (fun a b => decide (key a < key b)) l
  constructor
  · rintro rfl
    exact ⟨hperm, hsorted, fun a _ => stableSort_ties key (key a) l⟩
  · rintro ⟨hm, hpairwise, hties⟩
    refine eq_of_perm_of_ties key (hm.trans hperm.symm) hpairwise hsorted fun a ha => ?_
    rw [hties a (hm.mem_iff.mp ha), stableSort_ties]

/-! ## Scores in reading order -/

/-- What makes a list of segments a score in reading order. -/
structure InReadingOrder (score result : List Segment) : Prop where
  /-- Every segment of the score is in the list, as often and unchanged, and nothing else is. -/
  complete : result.Perm score
  /-- No segment comes behind one that it is to be read before. -/
  ordered : ∀ (i j : Nat) (a b : Segment), i < j → result[i]? = some a → result[j]? = some b →
    ¬ b.ReadBefore a
  /-- Segments at one place are in the order in which the score lists them. -/
  ties : ∀ s ∈ score, (result.filter fun t => s.SamePlace t) = score.filter fun t => s.SamePlace t

theorem sortReadingOrder_eq (score : List Segment) :
    sortReadingOrder score =
      stableSort (fun a b => decide (a.readingKey < b.readingKey)) score := by
  rw [sortReadingOrder, funext fun a => funext fun b => Segment.readsBefore_eq a b]

theorem pairwise_readingKey_iff {l : List Segment} :
    (l.Pairwise fun a b => a.readingKey ≤ b.readingKey) ↔
      ∀ (i j : Nat) (a b : Segment), i < j → l[i]? = some a → l[j]? = some b →
        ¬ b.ReadBefore a := by
  simp only [Segment.readBefore_iff, not_lt, List.pairwise_iff_getElem]
  constructor
  · intro h i j a b hij ha hb
    obtain ⟨hi, rfl⟩ := List.getElem?_eq_some_iff.mp ha
    obtain ⟨hj, rfl⟩ := List.getElem?_eq_some_iff.mp hb
    exact h i j hi hj hij
  · intro h i j hi hj hij
    exact h i j _ _ hij (List.getElem?_eq_getElem hi) (List.getElem?_eq_getElem hj)

theorem filter_samePlace (s : Segment) (l : List Segment) :
    (l.filter fun t => s.SamePlace t) = l.filter fun t => t.readingKey = s.readingKey :=
  List.filter_congr fun _ _ => decide_eq_decide.mpr Segment.samePlace_iff

/-- There is one way only to put a score into reading order. -/
theorem inReadingOrder_iff {score result : List Segment} :
    InReadingOrder score result ↔ result = sortReadingOrder score := by
  rw [sortReadingOrder_eq, stableSort_iff, pairwise_readingKey_iff]
  constructor
  · rintro ⟨hcomplete, hordered, hties⟩
    refine ⟨hcomplete, hordered, fun s hs => ?_⟩
    rw [← filter_samePlace, ← filter_samePlace, hties s hs]
  · rintro ⟨hcomplete, hordered, hties⟩
    refine ⟨hcomplete, hordered, fun s hs => ?_⟩
    rw [filter_samePlace, filter_samePlace, hties s hs]

/-- **The reading order of a score is the only list of its segments that is in order and keeps the
order of those at one place.** It is defined for all numbers, since two segments that are not at
the same place are in an order. To put the score into reading order again changes nothing, and
how segments at different places are listed has no influence. -/
theorem sortReadingOrder_is_the_reading_order (score : List Segment) :
    (∀ result, InReadingOrder score result ↔ result = sortReadingOrder score) ∧
      (∀ a b : Segment, ¬ a.SamePlace b ↔
        (a.ReadBefore b ∧ ¬ b.ReadBefore a) ∨ (b.ReadBefore a ∧ ¬ a.ReadBefore b)) ∧
      (∀ a b c : Segment, a.ReadBefore b → b.ReadBefore c → a.ReadBefore c) ∧
      sortReadingOrder (sortReadingOrder score) = sortReadingOrder score ∧
      ∀ other : List Segment, other.Perm score →
        (∀ s ∈ score, (other.filter fun t => s.SamePlace t) =
          score.filter fun t => s.SamePlace t) →
        sortReadingOrder other = sortReadingOrder score := by
  have hsorted : InReadingOrder score (sortReadingOrder score) := inReadingOrder_iff.mpr rfl
  refine ⟨fun _ => inReadingOrder_iff, fun _ _ => Segment.not_samePlace_iff,
    fun _ _ _ => Segment.ReadBefore.trans, ?_, fun other hperm hties => ?_⟩
  · -- the sorted list is in its own reading order
    exact (inReadingOrder_iff.mp ⟨.refl _, hsorted.ordered, fun _ _ => rfl⟩).symm
  · -- the sorted list is in the reading order of the other list, too
    refine (inReadingOrder_iff.mp ⟨?_, hsorted.ordered, fun s hs => ?_⟩).symm
    · exact hsorted.complete.trans hperm.symm
    · have hs : s ∈ score := hperm.mem_iff.mp hs
      rw [hsorted.ties s hs, hties s hs]

/-- Segments at a NaN, at both zeros, and twice at one place. -/
def scatteredSegments : List Segment :=
  let listed (label : String) (y : Binary64) : Segment :=
    { id := default, label := some label, region := { Region.wholePage with y } }
  [listed "D" .nan, listed "A" (.signedZero true), listed "B" .zero, listed "C" .zero]

/-- Segments at one place keep their order, also if the others are listed elsewhere. -/
theorem sortReadingOrder_is_the_reading_order_scattered :
    let moved := scatteredSegments.drop 2 ++ scatteredSegments.take 2
    moved.Perm scatteredSegments ∧
      sortReadingOrder moved = sortReadingOrder scatteredSegments ∧
      (sortReadingOrder scatteredSegments).map (·.label) =
        [some "A", some "B", some "C", some "D"] := by
  intro moved
  obtain ⟨-, -, -, -, hmoved⟩ := sortReadingOrder_is_the_reading_order scatteredSegments
  have hperm : moved.Perm scatteredSegments := by decide
  exact ⟨hperm, hmoved moved hperm (by decide), by decide⟩

end Playthrough
