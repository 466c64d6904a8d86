import Playthrough.Proofs.Merging

/-!
# Passages between neighbouring marks

Whatever way a performance takes, each of its passages is cut from a segment of the score at
marks of this segment or at its edges. And no passage runs across a mark: music is only played
on the way from one mark to the next one, up to the first mark, and behind the last one. The
one exception is the end of a performance that skips an ending behind which there is no
boundary; there the marks that are skipped stay silent, and the music does not.

- `Passage.mem_between_iff`: what the passages between two positions are;
- `Passage.WellFormed` and `Passage.Unbroken`: the two properties;
- `passages_between_marks`: all passages of a performance have them.
-/

namespace Playthrough

/-! ## The marks of a segment on the roadmap -/

namespace Roadmap

variable {score : List Segment} {a b m n : PlacedMark} {i j : Nat}

/-- Every mark of every segment is on the roadmap. -/
theorem mem_ofScore {s : Segment} {mark : Mark} (hs : score[i]? = some s) (hmark : mark ∈ s.marks) :
    { segment := i, mark } ∈ ofScore score := by
  refine List.mem_flatMap.mpr ⟨(s, i), List.mem_zipIdx_iff_getElem?.mpr hs, ?_⟩
  exact List.mem_map.mpr ⟨mark, (marksInOrder_perm s).mem_iff.mpr hmark, rfl⟩

/-- A mark of the roadmap is one of the marks of its segment. -/
theorem mark_mem {s : Segment} (hm : m ∈ ofScore score) (hs : score[m.segment]? = some s) :
    m.mark ∈ s.marks := by
  obtain ⟨s', hs', hmark⟩ := exists_segment_of_mem hm
  obtain rfl : s = s' := Option.some.inj (hs.symm.trans hs')
  exact hmark

theorem position_le_self (hscore : HasPlaces score) (hm : m ∈ ofScore score) :
    m.position ≤ m.position := by
  obtain ⟨s, hs, hmark⟩ := exists_segment_of_mem hm
  have hplace := hscore s (List.mem_of_getElem? hs) m.mark hmark
  exact .inr ⟨rfl, hplace, hplace, Int.le_refl _⟩

/-- A mark that is not met later is not further to the right. -/
theorem position_le_of_le (hscore : HasPlaces score) (ha : (ofScore score)[i]? = some a)
    (hb : (ofScore score)[j]? = some b) (hij : i ≤ j) : a.position ≤ b.position := by
  rcases Nat.lt_or_eq_of_le hij with hlt | rfl
  · exact position_le_of_lt hscore ha hb hlt
  · obtain rfl : a = b := Option.some.inj (ha.symm.trans hb)
    exact position_le_self hscore (List.mem_of_getElem? ha)

end Roadmap

/-! ## The passages between two positions -/

namespace Passage

variable {score : List Segment} {played : Option Position} {goal : Position} {p : Passage}

/-- The passages between two positions are the stretches of the segments on the way that have a
width. -/
theorem mem_between_iff :
    p ∈ between score played goal ↔
      (resume played).segment ≤ p.index ∧ p.index ≤ goal.segment ∧
        score[p.index]? = some p.segment ∧ p.startX = (resume played).left p.index ∧
        p.endX = goal.right p.index ∧ p.startX < p.endX := by
  rw [between_eq, List.mem_filterMap]
  constructor
  · rintro ⟨i, hi, hbind⟩
    obtain ⟨s, hs, hwithin⟩ := Option.bind_eq_some_iff.mp hbind
    obtain ⟨hlo, hhi⟩ := List.mem_range'_1.mp hi
    have hle : i ≤ goal.segment := by omega
    rw [within_eq] at hwithin
    by_cases hlt : (resume played).left i < goal.right i
    · rw [if_pos hlt] at hwithin
      obtain rfl := Option.some.inj hwithin
      exact ⟨hlo, hle, hs, rfl, rfl, hlt⟩
    · rw [if_neg hlt] at hwithin
      cases hwithin
  · rintro ⟨hlo, hhi, hs, hstart, hend, hlt⟩
    refine ⟨p.index, List.mem_range'_1.mpr ⟨hlo, by omega⟩, ?_⟩
    rw [hs, Option.bind_some, within_eq, ← hstart, ← hend, if_pos hlt]

/-- Where the first passage begins in its segment: at its left edge, or at the position up to
which the music was played. -/
theorem left_resume_cases (played : Option Position) (i : Nat) :
    (resume played).left i = .zero ∨
      ∃ a, played = some a ∧ i = a.segment ∧ (resume played).left i = a.x := by
  cases played with
  | none => exact .inl (ite_self _)
  | some a =>
    by_cases hend : Binary64.one ≤ a.x
    · have hresume : resume (some a) = { segment := a.segment + 1, x := .zero } := if_pos hend
      rw [hresume]
      exact .inl (ite_self _)
    · have hresume : resume (some a) = a := if_neg hend
      rw [hresume]
      by_cases hi : i = a.segment
      · exact .inr ⟨a, rfl, hi, if_pos hi⟩
      · exact .inl (if_neg hi)

/-- In the segment of the position up to which the music was played, or in front of it, nothing
to the left of this position is played. -/
theorem not_startX_lt_of_position_le {a n : Position} (h : p ∈ between score (some a) goal)
    (hn : n.segment = p.index) (hle : n ≤ a) : ¬ p.startX < n.x := by
  obtain ⟨hlo, -, -, hstart, -, -⟩ := mem_between_iff.mp h
  by_cases hend : Binary64.one ≤ a.x
  · have hresume : resume (some a) = { segment := a.segment + 1, x := .zero } := if_pos hend
    have hseg := Position.segment_le hle
    rw [hresume] at hlo
    dsimp only at hlo
    omega
  · have hresume : resume (some a) = a := if_neg hend
    rw [hresume] at hlo hstart
    rcases hle with hlt | ⟨heq, hx⟩
    · omega
    · have hleft : a.left p.index = a.x := if_pos (by omega)
      rw [hstart, hleft]
      exact Binary64.not_lt_of_le hx

/-- Nothing is played to the right of the goal. -/
theorem not_lt_endX_of_le_position {n : Position} (h : p ∈ between score played goal)
    (hn : n.segment = p.index) (hle : goal ≤ n) : ¬ n.x < p.endX := by
  obtain ⟨-, hhi, -, -, hend, -⟩ := mem_between_iff.mp h
  rcases hle with hlt | ⟨heq, hx⟩
  · omega
  · have hright : goal.right p.index = goal.x := if_pos (by omega)
    rw [hend, hright]
    exact Binary64.not_lt_of_le hx

/-! ## Two properties of passages -/

/-- The passage is a stretch of a segment of the score, from the left edge or a mark to a mark
or the right edge. -/
structure WellFormed (score : List Segment) (p : Passage) : Prop where
  /-- The segment is the one with this index. -/
  segment : score[p.index]? = some p.segment
  /-- The stretch has a width. -/
  width : p.startX < p.endX
  /-- The stretch begins at the left edge or at a mark. -/
  start : p.startX = .zero ∨ ∃ m ∈ p.segment.marks, p.startX = m.x
  /-- The stretch ends at the right edge or at a mark. -/
  stop : p.endX = .one ∨ ∃ m ∈ p.segment.marks, p.endX = m.x

/-- No mark of the segment stands between the ends of the passage. -/
def Unbroken (p : Passage) : Prop := ∀ m ∈ p.segment.marks, ¬ (p.startX < m.x ∧ m.x < p.endX)

instance (p : Passage) : Decidable p.Unbroken :=
  inferInstanceAs (Decidable (∀ m ∈ p.segment.marks, ¬ (p.startX < m.x ∧ m.x < p.endX)))

/-- Music from a mark to a mark or to a right edge is well-formed. -/
theorem wellFormed_of_mem_between
    (hplayed : ∀ a, played = some a → ∃ m ∈ Roadmap.ofScore score, m.position = a)
    (hgoal : goal.x = .one ∨ ∃ m ∈ Roadmap.ofScore score, m.position = goal)
    (h : p ∈ between score played goal) : p.WellFormed score := by
  obtain ⟨-, -, hs, hstart, hend, hlt⟩ := mem_between_iff.mp h
  constructor
  case segment => exact hs
  case width => exact hlt
  case start =>
    rw [hstart]
    rcases left_resume_cases played p.index with hzero | ⟨a, rfl, hi, hx⟩
    · exact .inl hzero
    · obtain ⟨m, hm, rfl⟩ := hplayed a rfl
      rw [hi] at hs
      exact .inr ⟨m.mark, Roadmap.mark_mem hm hs, hx⟩
  case stop =>
    rw [hend]
    by_cases hi : p.index = goal.segment
    · have hright : goal.right p.index = goal.x := if_pos hi
      rw [hright]
      rcases hgoal with hone | ⟨m, hm, rfl⟩
      · exact .inl hone
      · rw [hi] at hs
        exact .inr ⟨m.mark, Roadmap.mark_mem hm hs, rfl⟩
    · exact .inl (if_neg hi)

/-- Music on the way on which there is no mark is unbroken. -/
theorem unbroken_of_mem_between
    (hmarks : ∀ n ∈ Roadmap.ofScore score,
      (∃ a, played = some a ∧ n.position ≤ a) ∨ goal ≤ n.position)
    (h : p ∈ between score played goal) : p.Unbroken := by
  rintro mark hmark ⟨hstart, hend⟩
  have hs := (mem_between_iff.mp h).2.2.1
  rcases hmarks _ (Roadmap.mem_ofScore hs hmark) with ⟨a, rfl, hle⟩ | hle
  · exact not_startX_lt_of_position_le h rfl hle hstart
  · exact not_lt_endX_of_le_position h rfl hle hend

/-- If the marks are inside of their segments, then so are the passages. -/
theorem WellFormed.inside (h : p.WellFormed score) (hscore : MarksInside score) :
    .zero ≤ p.startX ∧ p.endX ≤ .one := by
  have hs := List.mem_of_getElem? h.segment
  constructor
  · rcases h.start with hzero | ⟨m, hm, hx⟩
    · rw [hzero]
      decide
    · rw [hx]
      exact (hscore _ hs m hm).1
  · rcases h.stop with hone | ⟨m, hm, hx⟩
    · rw [hone]
      decide
    · rw [hx]
      exact (hscore _ hs m hm).2

end Passage

/-! ## The music of moves -/

section Moves

open Performer

variable {score : List Segment} {p : Passage} {i j : Nat} {m : PlacedMark}

/-- Music up to a mark is music between two positions. -/
theorem exists_mark_of_mem_musicUpTo {road : Roadmap} {played : Option Position}
    (h : p ∈ musicUpTo score road played j) :
    ∃ m, road[j]? = some m ∧ p ∈ Passage.between score played m.position := by
  unfold musicUpTo at h
  cases hm : road[j]? with
  | none => simp [Roadmap.positionAt?, hm] at h
  | some m =>
    rw [Roadmap.positionAt?_of_mark hm] at h
    exact ⟨m, rfl, h⟩

/-- Music that is played from a mark, or from the beginning, up to a mark is well-formed. -/
theorem wellFormed_of_mem_musicUpTo {played : Option Position}
    (hplayed : ∀ a, played = some a → ∃ m ∈ Roadmap.ofScore score, m.position = a)
    (h : p ∈ musicUpTo score (Roadmap.ofScore score) played j) : p.WellFormed score := by
  obtain ⟨m, hm, hmusic⟩ := exists_mark_of_mem_musicUpTo h
  exact Passage.wellFormed_of_mem_between hplayed (.inr ⟨m, List.mem_of_getElem? hm, rfl⟩) hmusic

/-- The music up to the first mark is not broken by any mark. -/
theorem unbroken_of_mem_music_first (hscore : HasPlaces score)
    (h : p ∈ musicUpTo score (Roadmap.ofScore score) none 0) : p.Unbroken := by
  obtain ⟨m, hm, hmusic⟩ := exists_mark_of_mem_musicUpTo h
  refine Passage.unbroken_of_mem_between (fun n hn => .inr ?_) hmusic
  obtain ⟨k, hk⟩ := List.getElem?_of_mem hn
  exact Roadmap.position_le_of_le hscore hm hk (Nat.zero_le k)

/-- The music between a mark and the next one is not broken by any mark. -/
theorem unbroken_of_mem_music_advance (hscore : HasPlaces score)
    (hm : (Roadmap.ofScore score)[i]? = some m)
    (h : p ∈ musicUpTo score (Roadmap.ofScore score) (some m.position) (i + 1)) : p.Unbroken := by
  obtain ⟨next, hnext, hmusic⟩ := exists_mark_of_mem_musicUpTo h
  refine Passage.unbroken_of_mem_between (fun n hmem => ?_) hmusic
  obtain ⟨k, hk⟩ := List.getElem?_of_mem hmem
  rcases Nat.lt_or_ge i k with hlt | hge
  · exact .inr (Roadmap.position_le_of_le hscore hnext hk hlt)
  · exact .inl ⟨m.position, rfl, Roadmap.position_le_of_le hscore hk hm hge⟩

/-- Behind the last mark there is none, either. -/
theorem unbroken_of_mem_music_closing (hscore : HasPlaces score) {goal : Position}
    (hm : (Roadmap.ofScore score)[i]? = some m) (hlast : i + 1 = (Roadmap.ofScore score).length)
    (h : p ∈ Passage.between score (some m.position) goal) : p.Unbroken := by
  refine Passage.unbroken_of_mem_between (fun n hmem => ?_) h
  obtain ⟨k, hk⟩ := List.getElem?_of_mem hmem
  have hlt := (List.getElem?_eq_some_iff.mp hk).1
  exact .inl ⟨m.position, rfl, Roadmap.position_le_of_le hscore hk hm (by omega)⟩

/-- The music of a round goes from a mark to the next one, or up to the first one. -/
theorem Performer.mem_arrivalPassages_of_next? (hscore : HasPlaces score) {a b : Performer}
    (hnext : a.next? (Roadmap.ofScore score) = some b)
    (h : p ∈ arrivalPassages score (Roadmap.ofScore score) b) :
    p.WellFormed score ∧ p.Unbroken := by
  rw [arrivalPassages_of_next? hscore hnext] at h
  have hleads := leadsTo_of_next? hnext
  obtain ⟨m, hm⟩ := exists_mark_of_next? hnext
  unfold LeadsTo at hleads
  cases hmove : a.move (Roadmap.ofScore score) with
  | advance =>
    rw [hmove] at h hleads
    have hmusic : p ∈ musicUpTo score (Roadmap.ofScore score) (some m.position) (a.cursor + 1) := by
      rw [← Roadmap.positionAt?_of_mark hm, ← show b.cursor = a.cursor + 1 from hleads]
      exact h
    constructor
    · refine wellFormed_of_mem_musicUpTo (fun position hposition => ?_) hmusic
      exact ⟨m, List.mem_of_getElem? hm, Option.some.inj hposition⟩
    · exact unbroken_of_mem_music_advance hscore hm hmusic
  | daCapo =>
    rw [hmove] at h hleads
    have hmusic : p ∈ musicUpTo score (Roadmap.ofScore score) none 0 := by
      rw [← show b.cursor = 0 from hleads]
      exact h
    constructor
    · exact wellFormed_of_mem_musicUpTo (by simp) hmusic
    · exact unbroken_of_mem_music_first hscore hmusic
  | jump target =>
    rw [hmove] at h
    exact absurd h List.not_mem_nil
  | stop =>
    rw [hmove] at h
    exact absurd h List.not_mem_nil

/-- The music along a course is well-formed and unbroken. -/
theorem Performer.Course.mem_arrivalPassages (hscore : HasPlaces score) {l : List Performer}
    {c : Performer} (hcourse : Course (Roadmap.ofScore score) {} l c)
    (h : p ∈ (l ++ [c]).flatMap (arrivalPassages score (Roadmap.ofScore score))) :
    p.WellFormed score ∧ p.Unbroken := by
  refine hcourse.induction_snoc (P := fun l c =>
    p ∈ (l ++ [c]).flatMap (arrivalPassages score (Roadmap.ofScore score)) →
      p.WellFormed score ∧ p.Unbroken) ?_ ?_ h
  · intro h
    rw [List.nil_append, List.flatMap_singleton, arrivalPassages_eq_musicUpTo] at h
    constructor
    · exact wellFormed_of_mem_musicUpTo (by simp) h
    · exact unbroken_of_mem_music_first hscore h
  · intro l a b _ ih hnext h
    rw [List.flatMap_append, List.flatMap_singleton] at h
    rcases List.mem_append.mp h with h | h
    · exact ih h
    · exact mem_arrivalPassages_of_next? hscore hnext h

end Moves

/-! ## The passages of a performance -/

/-- The performance ran off by skipping an ending behind which there is no boundary. -/
def Trace.SkipsToEnd (road : Roadmap) (trace : Trace) : Prop :=
  trace.ending = .ranOff ∧ ∃ a ∈ trace.arrivals.getLast?, ∃ numbers,
    road.kindAt? a.cursor = some (.volta numbers) ∧ a.move road = .jump road.length

open Performer

variable {score : List Segment} {p : Passage}

/-- The music upon all arrivals of a performance is well-formed and unbroken. -/
theorem mem_arrivalPassages_of_run (hscore : HasPlaces score) {budget : Nat}
    (h : p ∈ (({} : Performer).run (Roadmap.ofScore score) budget).arrivals.flatMap
      (arrivalPassages score (Roadmap.ofScore score))) :
    p.WellFormed score ∧ p.Unbroken := by
  obtain ⟨l, c, hcourse, hends⟩ := run_endsAs (Roadmap.ofScore score) budget {}
  rcases hends.arrivals hcourse with hnil | ⟨before, c, harrivals, hbefore⟩
  · rw [hnil] at h
    exact absurd h List.not_mem_nil
  · rw [harrivals] at h
    exact hbefore.mem_arrivalPassages hscore h

/-- The music at the end of a performance is well-formed, and no mark is left for it to run
across unless an ending is skipped. -/
theorem mem_closingPassages (hscore : HasPlaces score) {budget : Nat}
    (hbudget : Roadmap.ofScore score ≠ [] → 0 < budget)
    (h : p ∈ closingPassages score (({} : Performer).run (Roadmap.ofScore score) budget)) :
    p.WellFormed score ∧
      ((({} : Performer).run (Roadmap.ofScore score) budget).SkipsToEnd (Roadmap.ofScore score) ∨
        p.Unbroken) := by
  obtain ⟨l, c, hcourse, hends⟩ := run_endsAs (Roadmap.ofScore score) budget {}
  have hfollows := run_follows (Roadmap.ofScore score) hbudget
  rw [hends.closingPassages hcourse] at h
  generalize ({} : Performer).run (Roadmap.ofScore score) budget = trace at *
  cases hending : trace.ending with
  | fine =>
    rw [hending] at h
    exact absurd h List.not_mem_nil
  | unsettled =>
    rw [hending] at h
    exact absurd h List.not_mem_nil
  | ranOff =>
    rw [hending] at h
    dsimp only at h
    cases hlast : trace.arrivals.getLast? with
    | none =>
      -- without an arrival there is no mark at all
      have hroad := hfollows.nonempty (List.getLast?_eq_none_iff.mp hlast)
      rw [hlast] at h
      constructor
      · exact Passage.wellFormed_of_mem_between (by simp) (.inl rfl) h
      · refine .inr (Passage.unbroken_of_mem_between (fun n hn => ?_) h)
        rw [hroad] at hn
        exact absurd hn List.not_mem_nil
    | some a =>
      have ha : a.cursor < (Roadmap.ofScore score).length :=
        hfollows.marks a (List.mem_of_getLast? hlast)
      have hm := List.getElem?_eq_getElem ha
      rw [hlast, Option.bind_some, Roadmap.positionAt?_of_mark hm] at h
      constructor
      · refine Passage.wellFormed_of_mem_between (fun position hposition => ?_) (.inl rfl) h
        exact ⟨_, List.mem_of_getElem? hm, Option.some.inj hposition⟩
      · rcases hfollows.ranOff hending a hlast with ⟨-, hend⟩ | ⟨numbers, hkind, hmove⟩
        · exact .inr (unbroken_of_mem_music_closing hscore hm hend h)
        · exact .inl ⟨hending, a, hlast, numbers, hkind, hmove⟩

/-- **All passages of a performance are well-formed, and none runs across a mark**, apart from
what is played at the end of a performance that skips an ending without a boundary behind it. -/
theorem passages_between_marks (settings : Settings) {score : List Segment}
    (hscore : HasPlaces score) :
    let road := Roadmap.ofScore score
    let trace := ({} : Performer).run road (settings.budget road.length)
    let played := trace.arrivals.flatMap (arrivalPassages score road)
    let closing := closingPassages score trace
    (perform settings score).passages = played ++ closing ∧
      (∀ p ∈ played ++ closing, p.WellFormed score ∧
        (MarksInside score → .zero ≤ p.startX ∧ p.endX ≤ .one)) ∧
      (∀ p ∈ played, p.Unbroken) ∧
      (trace.SkipsToEnd road ∨ ∀ p ∈ closing, p.Unbroken) := by
  intro road trace played closing
  have hplayed : ∀ p ∈ played, p.WellFormed score ∧ p.Unbroken :=
    fun p hp => mem_arrivalPassages_of_run hscore hp
  have hbudget : road ≠ [] → 0 < settings.budget road.length :=
    fun hroad => settings.budget_pos (List.length_pos_iff.mpr hroad)
  have hclosing : ∀ p ∈ closing, p.WellFormed score ∧ (trace.SkipsToEnd road ∨ p.Unbroken) :=
    fun p hp => mem_closingPassages hscore hbudget hp
  refine ⟨by rw [perform_eq], ?_, fun p hp => (hplayed p hp).2, ?_⟩
  · intro p hp
    have hformed : p.WellFormed score := by
      rcases List.mem_append.mp hp with hp | hp
      · exact (hplayed p hp).1
      · exact (hclosing p hp).1
    exact ⟨hformed, hformed.inside⟩
  · by_cases hskips : trace.SkipsToEnd road
    · exact .inl hskips
    · exact .inr fun p hp => (hclosing p hp).2.resolve_left hskips

/-- A quarter of the way through a segment. -/
def Binary64.quarter : Binary64 := { negative := false, magnitude := 0x3fd0000000000000 }

/-- One segment with an ending for a second pass that never comes, and a Fine inside. -/
def endingOfNoPass : List Segment :=
  [{ id := default, marks := [{ kind := .volta [2], x := .zero },
    { kind := .fine, x := .quarter }] }]

/-- The ending is skipped, and the segment is played to the right edge across the Fine. -/
theorem passages_between_marks_endingOfNoPass :
    let road := Roadmap.ofScore endingOfNoPass
    let trace := ({} : Performer).run road (({} : Settings).budget road.length)
    HasPlaces endingOfNoPass ∧ MarksInside endingOfNoPass ∧
      (∀ p ∈ (perform {} endingOfNoPass).passages, p.WellFormed endingOfNoPass ∧
        .zero ≤ p.startX ∧ p.endX ≤ .one) ∧
      trace.SkipsToEnd road ∧ ¬ ∀ p ∈ closingPassages endingOfNoPass trace, p.Unbroken := by
  intro road trace
  have hscore : HasPlaces endingOfNoPass := by decide
  have hinside : MarksInside endingOfNoPass := by decide
  have hbroken : ¬ ∀ p ∈ closingPassages endingOfNoPass trace, p.Unbroken := by decide
  obtain ⟨hpassages, hformed, -, hend⟩ := passages_between_marks {} hscore
  refine ⟨hscore, hinside, fun p hp => ?_, hend.resolve_right hbroken, hbroken⟩
  rw [hpassages] at hp
  exact ⟨(hformed p hp).1, (hformed p hp).2 hinside⟩

end Playthrough
