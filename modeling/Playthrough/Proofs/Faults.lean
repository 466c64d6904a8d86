import Playthrough.Proofs.Descriptions
import Playthrough.Proofs.Values

/-!
# The first fault of a score

A score is valid if each of its segments is, whatever their order. Of any other score the first
fault is reported: that of the first segment that is not valid, and of this segment the rectangle
before the marks, and of a mark its place before what it carries.

- `Binary64.IsFraction`, `Binary64.IsPositive`: what is asked of numbers, in terms of their values;
- `Segment.Valid`, `Segment.Reports`: what is right with a segment, and what is said about it if
  it is not right;
- `firstAt_of_findSome?`: of many things that are looked at, the first one with a result counts;
- `first_fault_is_reported`: all of this for whole scores.
-/

namespace Playthrough

/-! ## Looking at many things -/

section Looking

variable {α β : Type} {P : α → Prop} {f : α → Option β} {l : List α}

/-- There is at most one first element. -/
theorem FirstAt.unique {i j : Nat} {a b : α} (hi : FirstAt P l i a) (hj : FirstAt P l j b) :
    i = j ∧ a = b := by
  obtain ⟨ha, hPa, hbefore⟩ := hi
  obtain ⟨hb, hPb, hbefore'⟩ := hj
  rcases Nat.lt_trichotomy i j with hlt | rfl | hgt
  · exact absurd hPa (hbefore' i hlt a ha)
  · exact ⟨rfl, Option.some.inj (ha.symm.trans hb)⟩
  · exact absurd hPb (hbefore j hgt b hb)

theorem firstAt_zipIdx_iff {i : Nat} {x : α × Nat} :
    FirstAt (fun y => P y.1) l.zipIdx i x ↔ i = x.2 ∧ FirstAt P l i x.1 := by
  constructor
  · exact FirstAt.of_zipIdx
  · rintro ⟨rfl, hi, hx, hbefore⟩
    refine ⟨?_, hx, fun j hj y hy => ?_⟩
    · rw [List.getElem?_zipIdx, Nat.zero_add, hi]
      rfl
    · rw [List.getElem?_zipIdx, Nat.zero_add] at hy
      obtain ⟨b, hb, rfl⟩ := Option.map_eq_some_iff.mp hy
      exact hbefore j hj b hb

/-- **Of many things that are looked at, the first one with a result counts.** -/
theorem firstAt_of_findSome? {b : β} :
    l.findSome? f = some b ↔ ∃ i a, FirstAt (fun c => f c ≠ none) l i a ∧ f a = some b := by
  have hfound {b : β} (h : l.findSome? f = some b) :
      ∃ i a, FirstAt (fun c => f c ≠ none) l i a ∧ f a = some b := by
    induction l with
    | nil => cases h
    | cons a l ih =>
      rw [List.findSome?_cons] at h
      cases ha : f a with
      | some b' =>
        rw [ha] at h
        exact ⟨0, a, firstAt_zero (by simp [ha]) l, ha.trans h⟩
      | none =>
        rw [ha] at h
        obtain ⟨i, c, hfirst, hc⟩ := ih h
        exact ⟨i + 1, c, hfirst.succ (by simp [ha]), hc⟩
  refine ⟨hfound, ?_⟩
  rintro ⟨i, a, hfirst, ha⟩
  cases h : l.findSome? f with
  | none =>
    have hnone := List.findSome?_eq_none_iff.mp h a (List.mem_of_getElem? hfirst.1)
    exact nomatch hnone.symm.trans ha
  | some b' =>
    obtain ⟨j, c, hfirst', hc⟩ := hfound h
    obtain ⟨-, rfl⟩ := hfirst.unique hfirst'
    exact hc.symm.trans ha

end Looking

/-! ## Numbers -/

namespace Binary64

/-- A number with a value, which is between zero and one. -/
structure IsFraction (a : Binary64) : Prop where
  finite : a.isFinite = true
  nonneg : 0 ≤ a.signedUnits
  le_one : a.signedUnits ≤ unitsPerOne

/-- A number above zero. -/
structure IsPositive (a : Binary64) : Prop where
  number : a.isNaN = false
  sign : a.negative = false
  nonzero : a.magnitude ≠ 0

variable {a : Binary64}

theorem isNaN_of_isFinite (h : a.isFinite = true) : a.isNaN = false := by
  have hlt : a.magnitude < infinityMagnitude := of_decide_eq_true h
  exact decide_eq_false (Nat.lt_asymm hlt)

theorem inUnitRange_iff : a.InUnitRange ↔ a.IsFraction := by
  have hzero : (zero ≤ a) ↔ a.isNaN = false ∧ 0 ≤ a.signedUnits := by
    rw [le_iff, rank_le_rank_iff]
    exact and_iff_right rfl
  have hone : (a ≤ one) ↔ a.isNaN = false ∧ a.signedUnits ≤ unitsPerOne := by
    have hvalue : one.signedUnits = unitsPerOne := congrArg Nat.cast units_one
    rw [le_iff, rank_le_rank_iff, hvalue]
    exact and_congr_right fun _ => and_iff_right rfl
  constructor
  · rintro ⟨hfinite, hlow, hhigh⟩
    exact ⟨hfinite, (hzero.mp hlow).2, (hone.mp hhigh).2⟩
  · rintro ⟨hfinite, hlow, hhigh⟩
    have hnumber := isNaN_of_isFinite hfinite
    exact ⟨hfinite, hzero.mpr ⟨hnumber, hlow⟩, hone.mpr ⟨hnumber, hhigh⟩⟩

theorem zero_lt_iff : zero < a ↔ a.IsPositive := by
  have hrank : zero.rank < a.rank ↔ a.negative = false ∧ a.magnitude ≠ 0 := by
    show 0 < a.rank ↔ _
    unfold rank
    cases a.negative
    · simp
      omega
    · simp
  rw [lt_iff, hrank]
  constructor
  · rintro ⟨-, hnumber, hsign, hnonzero⟩
    exact ⟨hnumber, hsign, hnonzero⟩
  · rintro ⟨hnumber, hsign, hnonzero⟩
    exact ⟨rfl, hnumber, hsign, hnonzero⟩

end Binary64

/-! ## Rectangles -/

/-- A rectangle with an extent in both directions and all edges on its page. -/
structure Region.Valid (r : Region) : Prop where
  left : r.x.IsFraction
  top : r.y.IsFraction
  width : r.width.IsPositive
  height : r.height.IsPositive
  right : (r.x + r.width).IsFraction
  bottom : (r.y + r.height).IsFraction

theorem Region.onPage_iff {r : Region} : r.OnPage ↔ r.Valid := by
  simp only [Region.OnPage, Binary64.inUnitRange_iff, Binary64.zero_lt_iff]
  constructor
  · rintro ⟨hleft, htop, hwidth, hheight, hright, hbottom⟩
    exact ⟨hleft, htop, hwidth, hheight, hright, hbottom⟩
  · rintro ⟨hleft, htop, hwidth, hheight, hright, hbottom⟩
    exact ⟨hleft, htop, hwidth, hheight, hright, hbottom⟩

/-! ## Marks -/

namespace Mark

/-- A mark between the edges of its segment. If it is a `:||`, it goes back at least once, and if
it is an ending, it is for at least one pass and only for passes counted from one. -/
structure Valid (m : Mark) : Prop where
  place : m.x.IsFraction
  times : ∀ times, m.kind = .repeatBackward times → 1 ≤ times
  numbers : ∀ numbers, m.kind = .volta numbers → numbers ≠ [] ∧ 0 ∉ numbers

/-- What is said about a mark that is not valid, and in which words. Its place is looked at before
what it carries. -/
inductive Reports (m : Mark) : SegmentFault → String → Prop
  | place (h : ¬ m.x.IsFraction) :
    Reports m (.markOffSegment m.kind.name m.x)
      (m.kind.name.text ++ " marker position " ++ m.x.text ++ " is outside 0.0..=1.0")
  | times (h : m.x.IsFraction) (hkind : m.kind = .repeatBackward 0) :
    Reports m .repeatsNever "repeat-backward must repeat at least once"
  | noNumbers (h : m.x.IsFraction) (hkind : m.kind = .volta []) :
    Reports m .voltaForNoPass "volta numbers must not be empty"
  | numberZero (h : m.x.IsFraction) {numbers : List Nat} (hkind : m.kind = .volta numbers)
      (hzero : 0 ∈ numbers) :
    Reports m .voltaForPassZero "volta numbers start at 1"

variable {m : Mark} {fault : SegmentFault} {text : String}

theorem Reports.not_valid (h : m.Reports fault text) : ¬ m.Valid := by
  rintro ⟨hplace, htimes, hnumbers⟩
  cases h with
  | place h => exact h hplace
  | times _ hkind => exact absurd (htimes 0 hkind) (by decide)
  | noNumbers _ hkind => exact (hnumbers [] hkind).1 rfl
  | numberZero _ hkind hzero => exact (hnumbers _ hkind).2 hzero

/-- **A mark without a fault is valid, and the fault of any other one is told.** -/
theorem fault?_cases (m : Mark) :
    (m.fault? = none ∧ m.Valid) ∨
      ∃ fault, m.fault? = some fault ∧ m.Reports fault fault.message := by
  obtain ⟨kind, x⟩ := m
  by_cases hx : x.InUnitRange
  · have hplace := Binary64.inUnitRange_iff.mp hx
    have hcarried : ({ kind, x } : Mark).fault? = kind.fault? := if_pos hx
    rw [hcarried]
    cases kind with
    | repeatBackward times =>
      by_cases htimes : times = 0
      · subst htimes
        exact .inr ⟨.repeatsNever, rfl, .times hplace rfl⟩
      · refine .inl ⟨if_neg htimes, hplace, ?_, nofun⟩
        rintro _ ⟨rfl⟩
        exact Nat.one_le_iff_ne_zero.mpr htimes
    | volta numbers =>
      by_cases hempty : numbers = []
      · subst hempty
        exact .inr ⟨.voltaForNoPass, rfl, .noNumbers hplace rfl⟩
      · by_cases hzero : 0 ∈ numbers
        · refine .inr ⟨.voltaForPassZero, ?_, .numberZero hplace rfl hzero⟩
          exact (if_neg hempty).trans (if_pos hzero)
        · refine .inl ⟨(if_neg hempty).trans (if_neg hzero), hplace, nofun, ?_⟩
          rintro _ ⟨rfl⟩
          exact ⟨hempty, hzero⟩
    | _ => exact .inl ⟨rfl, hplace, nofun, nofun⟩
  · refine .inr ⟨.markOffSegment kind.name x, if_neg hx, .place fun h => ?_⟩
    exact hx (Binary64.inUnitRange_iff.mpr h)

theorem fault?_eq_none_iff : m.fault? = none ↔ m.Valid := by
  rcases fault?_cases m with ⟨hnone, hvalid⟩ | ⟨fault, hsome, hreports⟩
  · exact iff_of_true hnone hvalid
  · exact iff_of_false (fun h => nomatch h.symm.trans hsome) hreports.not_valid

theorem reports_iff : m.Reports fault text ↔ m.fault? = some fault ∧ fault.message = text := by
  constructor
  · intro h
    obtain ⟨kind, x⟩ := m
    cases h with
    | place h => exact ⟨if_neg fun hx => h (Binary64.inUnitRange_iff.mp hx), rfl⟩
    | times h hkind =>
      obtain rfl : kind = .repeatBackward 0 := hkind
      exact ⟨if_pos (Binary64.inUnitRange_iff.mpr h), rfl⟩
    | noNumbers h hkind =>
      obtain rfl : kind = .volta [] := hkind
      exact ⟨if_pos (Binary64.inUnitRange_iff.mpr h), rfl⟩
    | @numberZero h numbers hkind hzero =>
      obtain rfl : kind = .volta numbers := hkind
      refine ⟨(if_pos (Binary64.inUnitRange_iff.mpr h)).trans ?_, rfl⟩
      exact (if_neg (List.ne_nil_of_mem hzero)).trans (if_pos hzero)
  · rintro ⟨h, rfl⟩
    rcases fault?_cases m with ⟨hnone, -⟩ | ⟨fault', hsome, hreports⟩
    · exact nomatch hnone.symm.trans h
    · obtain rfl : fault' = fault := Option.some.inj (hsome.symm.trans h)
      exact hreports

end Mark

/-! ## Segments -/

namespace Segment

/-- A segment whose rectangle and marks are all valid. -/
structure Valid (s : Segment) : Prop where
  region : s.region.Valid
  marks : ∀ m ∈ s.marks, m.Valid

/-- What is said about a segment that is not valid, and in which words. Its rectangle is looked at
before its marks, and these in the order in which they are listed. -/
inductive Reports (s : Segment) : SegmentFault → String → Prop
  | region (h : ¬ s.region.Valid) :
    Reports s (.regionOffPage s.region)
      ("bounding box (" ++ s.region.x.text ++ ", " ++ s.region.y.text ++ ", " ++
        s.region.width.text ++ " x " ++ s.region.height.text ++ ") is not inside the page")
  | mark (h : s.region.Valid) {i : Nat} {m : Mark} {fault : SegmentFault} {text : String}
      (hfirst : FirstAt (fun m => ¬ m.Valid) s.marks i m) (hm : m.Reports fault text) :
    Reports s fault text

variable {s : Segment} {fault : SegmentFault} {text : String}

theorem fault?_eq_none_iff : s.fault? = none ↔ s.Valid := by
  unfold fault?
  by_cases hregion : s.region.OnPage
  · rw [if_pos hregion, List.findSome?_eq_none_iff]
    constructor
    · intro h
      exact ⟨Region.onPage_iff.mp hregion, fun m hm => Mark.fault?_eq_none_iff.mp (h m hm)⟩
    · exact fun h m hm => Mark.fault?_eq_none_iff.mpr (h.marks m hm)
  · rw [if_neg hregion]
    constructor
    · exact nofun
    · exact fun h => absurd (Region.onPage_iff.mpr h.region) hregion

theorem reports_iff : s.Reports fault text ↔ s.fault? = some fault ∧ fault.message = text := by
  have hmarks (m : Mark) (_ : m ∈ s.marks) : m.fault? ≠ none ↔ ¬ m.Valid :=
    not_congr Mark.fault?_eq_none_iff
  constructor
  · intro h
    cases h with
    | region h => exact ⟨if_neg fun hregion => h (Region.onPage_iff.mp hregion), rfl⟩
    | mark h hfirst hm =>
      obtain ⟨hfault, htext⟩ := Mark.reports_iff.mp hm
      refine ⟨(if_pos (Region.onPage_iff.mpr h)).trans ?_, htext⟩
      exact firstAt_of_findSome?.mpr ⟨_, _, hfirst.imp fun m hm => (hmarks m hm).symm, hfault⟩
  · rintro ⟨h, rfl⟩
    unfold fault? at h
    by_cases hregion : s.region.OnPage
    · rw [if_pos hregion] at h
      obtain ⟨i, m, hfirst, hm⟩ := firstAt_of_findSome?.mp h
      exact .mark (Region.onPage_iff.mp hregion) (hfirst.imp hmarks)
        (Mark.reports_iff.mpr ⟨hm, rfl⟩)
    · rw [if_neg hregion] at h
      obtain rfl := Option.some.inj h
      exact .region fun hvalid => hregion (Region.onPage_iff.mpr hvalid)

end Segment

/-! ## Scores -/

/-- What is said about a score that is not valid, and in which words: the number of its first
segment that is not valid, counted from one, and what there is to say about this segment. -/
def ReportsFault (score : List Segment) (fault : FaultySegment) (text : String) : Prop :=
  ∃ index s segmentText, FirstAt (fun s => ¬ s.Valid) score index s ∧ fault.number = index + 1 ∧
    s.Reports fault.fault segmentText ∧
      text = "Invalid segment " ++ toString (index + 1) ++ ": " ++ segmentText

/-- What is reported of a segment at an index. -/
def numberedFault? (x : Segment × Nat) : Option FaultySegment :=
  x.1.fault?.map fun fault => { number := x.2 + 1, fault }

theorem firstFault?_eq (score : List Segment) :
    firstFault? score = score.zipIdx.findSome? numberedFault? := rfl

theorem numberedFault?_eq_none_iff {x : Segment × Nat} : numberedFault? x = none ↔ x.1.Valid := by
  rw [numberedFault?, Option.map_eq_none_iff, Segment.fault?_eq_none_iff]

theorem numberedFault?_eq_some_iff {x : Segment × Nat} {fault : FaultySegment} :
    numberedFault? x = some fault ↔ fault.number = x.2 + 1 ∧ x.1.fault? = some fault.fault := by
  rw [numberedFault?, Option.map_eq_some_iff]
  constructor
  · rintro ⟨f, hf, rfl⟩
    exact ⟨rfl, hf⟩
  · rintro ⟨hnumber, hfault⟩
    refine ⟨fault.fault, hfault, ?_⟩
    rw [← hnumber]

variable {score : List Segment}

theorem firstFault?_eq_none_iff : firstFault? score = none ↔ ∀ s ∈ score, s.Valid := by
  rw [firstFault?_eq, List.findSome?_eq_none_iff]
  constructor
  · intro h s hs
    obtain ⟨index, hindex⟩ := List.getElem?_of_mem hs
    exact numberedFault?_eq_none_iff.mp (h (s, index) (List.mem_zipIdx_iff_getElem?.mpr hindex))
  · intro h x hx
    have hs := List.mem_of_getElem? (List.mem_zipIdx_iff_getElem?.mp hx)
    exact numberedFault?_eq_none_iff.mpr (h x.1 hs)

theorem reportsFault_iff {fault : FaultySegment} {text : String} :
    ReportsFault score fault text ↔ firstFault? score = some fault ∧ fault.message = text := by
  have hnumbered (x : Segment × Nat) (_ : x ∈ score.zipIdx) :
      numberedFault? x ≠ none ↔ ¬ x.1.Valid := not_congr numberedFault?_eq_none_iff
  rw [firstFault?_eq, firstAt_of_findSome?]
  constructor
  · rintro ⟨index, s, segmentText, hfirst, hnumber, hs, rfl⟩
    obtain ⟨hfault, rfl⟩ := Segment.reports_iff.mp hs
    refine ⟨⟨index, (s, index), ?_, numberedFault?_eq_some_iff.mpr ⟨hnumber, hfault⟩⟩, ?_⟩
    · have hzip : FirstAt (fun x : Segment × Nat => ¬ x.1.Valid) score.zipIdx index (s, index) :=
        (firstAt_zipIdx_iff (P := fun s : Segment => ¬ s.Valid)).mpr ⟨rfl, hfirst⟩
      exact hzip.imp fun x hx => (hnumbered x hx).symm
    · show "Invalid segment " ++ toString fault.number ++ ": " ++ fault.fault.message = _
      rw [hnumber]
  · rintro ⟨⟨i, x, hfirst, hx⟩, rfl⟩
    obtain ⟨rfl, hs⟩ := (firstAt_zipIdx_iff (P := fun s : Segment => ¬ s.Valid)).mp
      (hfirst.imp hnumbered)
    obtain ⟨hnumber, hfault⟩ := numberedFault?_eq_some_iff.mp hx
    refine ⟨x.2, x.1, fault.fault.message, hs, hnumber, Segment.reports_iff.mpr ⟨hfault, rfl⟩, ?_⟩
    rw [← hnumber]
    rfl

/-- **A score has no fault just if all its segments are valid, which does not depend on their
order, and what is reported of any other score is its first fault.** -/
theorem first_fault_is_reported (score : List Segment) :
    (firstFault? score = none ↔ ∀ s ∈ score, s.Valid) ∧
      (∀ other : List Segment, other.Perm score →
        (firstFault? other = none ↔ firstFault? score = none)) ∧
      (∀ fault text, firstFault? score = some fault ∧ fault.message = text ↔
        ReportsFault score fault text) ∧
      ∀ layout : Layout, layout.score = score →
        (layout.validated = .ok layout ↔ ∀ s ∈ score, s.Valid) ∧
          ∀ fault, layout.validated = .error fault ↔ ReportsFault score fault fault.message := by
  refine ⟨firstFault?_eq_none_iff, fun other hperm => ?_, fun _ _ => reportsFault_iff.symm, ?_⟩
  · rw [firstFault?_eq_none_iff, firstFault?_eq_none_iff]
    exact forall_congr' fun s => imp_congr_left hperm.mem_iff
  · rintro layout rfl
    rw [← firstFault?_eq_none_iff]
    unfold Layout.validated
    refine ⟨?_, fun fault => ?_⟩
    · cases firstFault? layout.score with
      | none => exact iff_of_true rfl rfl
      | some fault => exact iff_of_false nofun nofun
    · rw [reportsFault_iff]
      cases firstFault? layout.score with
      | none => exact iff_of_false nofun nofun
      | some fault' => exact ⟨fun h => ⟨congrArg some (Except.error.inj h), rfl⟩,
          fun h => congrArg Except.error (Option.some.inj h.1)⟩

/-- A score whose second segment has two faulty marks and whose third one lies off its page. -/
def twoFaultySegments : List Segment :=
  [{ id := default, marks := [{ kind := .volta [1, 2], x := Binary64.signedZero true }] },
    { id := default, marks := [{ kind := .volta [2, 0], x := .one },
      { kind := .fine, x := .nan }] },
    { id := default, region := { Region.wholePage with width := .infinity false } }]

/-- The first mark of the second segment is reported. -/
theorem first_fault_is_reported_twoFaultySegments :
    ReportsFault twoFaultySegments { number := 2, fault := .voltaForPassZero }
        "Invalid segment 2: volta numbers start at 1" ∧
      ¬ ∀ s ∈ twoFaultySegments, s.Valid := by
  obtain ⟨hvalid, -, hreports, -⟩ := first_fault_is_reported twoFaultySegments
  have hfault : firstFault? twoFaultySegments =
      some { number := 2, fault := .voltaForPassZero } := by decide +kernel
  refine ⟨(hreports _ _).mp ⟨hfault, by decide⟩, fun h => ?_⟩
  exact nomatch hfault.symm.trans (hvalid.mpr h)

end Playthrough
