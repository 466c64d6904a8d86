import Playthrough.Proofs.Neighbours

/-!
# Nothing is lost

Repeats, D.C. and D.S. lead back to music that was played before. As long as nothing leads
ahead, the only way further into the piece is from a mark to the next one, and on this way the
music between them is played. A performance that comes to its end has therefore played every
place of the score, by whatever detours it went.

- `Roadmap.NothingSkips`: no mark leads ahead of the next one;
- `Performer.Course.exists_arrival`: each mark up to the last one reached was reached from the
  mark in front of it;
- `perform_loses_nothing`: every place of the score is in some passage.
-/

namespace Playthrough

/-! ## Roadmaps that only lead back -/

namespace Roadmap

/-- No mark leads ahead of the next one: there are no endings to skip and no Fine, no To Coda
has a coda, and each D.S. goes back. -/
structure NothingSkips (road : Roadmap) : Prop where
  /-- There is no ending bracket. -/
  noEnding : ∀ i numbers, road.kindAt? i ≠ some (.volta numbers)
  /-- There is no Fine. -/
  noFine : ∀ i, road.kindAt? i ≠ some .fine
  /-- A To Coda leads nowhere. -/
  noCoda : ∀ i label, road.kindAt? i = some (.toCoda label) → road.firstCoda? label = none
  /-- The segno of a D.S. stands in front of it. -/
  segnoBefore : ∀ i label target, road.kindAt? i = some (.dalSegno label) →
    road.firstSegno? label = some target → target < i

/-- Where the music in front of a mark begins: at the mark before it. The music in front of the
first mark begins with the score. -/
def positionBefore? (road : Roadmap) : Nat → Option Position
  | 0 => none
  | i + 1 => road.positionAt? i

end Roadmap

/-! ## The way ahead -/

namespace Performer

variable {road : Roadmap} {p q a : Performer} {l : List Performer} {i : Nat}

/-- A turn leads to the next mark, or not ahead. -/
theorem advance_or_back_of_turn (hroad : road.NothingSkips)
    (hbooks : p.mode = .firstTime → Bookkeeping road p) (hturn : Turn road p q) :
    q.cursor = p.cursor + 1 ∧ q.shown = p.shown ∨ q.cursor ≤ p.cursor := by
  cases hturn with
  | goBack hmode hkind hstart hleft =>
    exact .inr (Nat.le_of_lt ((hbooks hmode).rest_of_repeatBackward hkind hstart).1)
  | skip hmode hkind hpass => exact absurd hkind (hroad.noEnding _ _)
  | nextPass hmode hkind hstart hpass =>
    exact .inr (Nat.le_of_lt ((hbooks hmode).rest_of_finalVoltaEnd hkind hstart).1)
  | daCapo hkind hnew => exact .inr (Nat.zero_le _)
  | dalSegno hkind hnew htarget =>
    exact .inr (Nat.le_of_lt (hroad.segnoBefore _ _ _ hkind htarget))
  | toCoda hmode hkind htarget => exact nomatch (hroad.noCoda _ _ hkind).symm.trans htarget
  | _ => exact .inl ⟨rfl, rfl⟩

/-- A round leads to the next mark, with the music up to this one played, or not ahead. -/
theorem advance_or_back_of_next? (hroad : road.NothingSkips) (hp : Reached road p)
    (hnext : p.next? road = some q) :
    q.cursor = p.cursor + 1 ∧ q.shown = road.positionAt? p.cursor ∨ q.cursor ≤ p.cursor := by
  obtain ⟨m, hm, hturn⟩ := turn_of_next? hnext
  rw [Roadmap.positionAt?_of_mark hm]
  exact advance_or_back_of_turn (p := p.playTo m.position) hroad
    (fun hmode => (hp.bookkeeping hmode).playTo m.position) hturn

/-- **Each mark up to the last one reached was reached from the mark in front of it.** -/
theorem Course.exists_arrival (hroad : road.NothingSkips) (h : Course road {} l q)
    (hi : i ≤ q.cursor) : ∃ b ∈ l ++ [q], b.cursor = i ∧ b.shown = road.positionBefore? i := by
  refine h.induction_snoc (P := fun l q => ∀ i, i ≤ q.cursor →
    ∃ b ∈ l ++ [q], b.cursor = i ∧ b.shown = road.positionBefore? i) ?_ ?_ i hi
  · intro i hi
    obtain rfl : i = 0 := Nat.le_zero.mp hi
    exact ⟨{}, List.mem_singleton_self _, rfl, rfl⟩
  · intro l q r hcourse ih hnext i hi
    have hbefore : i ≤ q.cursor →
        ∃ b ∈ l ++ [q] ++ [r], b.cursor = i ∧ b.shown = road.positionBefore? i := by
      intro hle
      obtain ⟨b, hb, hcrosses⟩ := ih i hle
      exact ⟨b, List.mem_append_left [r] hb, hcrosses⟩
    rcases advance_or_back_of_next? hroad ⟨l, hcourse⟩ hnext with ⟨hcursor, hshown⟩ | hback
    · rcases Nat.lt_or_eq_of_le hi with hlt | rfl
      · exact hbefore (by omega)
      · refine ⟨r, List.mem_append_right _ (List.mem_singleton_self r), rfl, ?_⟩
        rw [hcursor, hshown]
        rfl
    · exact hbefore (Nat.le_trans hi hback)

/-- Without a Fine a performance only ends behind the last mark. -/
theorem length_le_of_nothingSkips (hroad : road.NothingSkips) (hend : a.next? road = none) :
    road.length ≤ a.cursor := by
  refine Nat.le_of_not_lt fun hlt => ?_
  obtain ⟨hkind, -⟩ := fine_of_next?_eq_none (List.getElem?_eq_getElem hlt) hend
  exact hroad.noFine _ hkind

end Performer

/-! ## The places of a score -/

/-- The passage shows this place of the score. -/
def Passage.Shows (p : Passage) (place : Position) : Prop :=
  p.index = place.segment ∧ p.startX ≤ place.x ∧ place.x < p.endX

section Places

variable {score : List Segment} {played : Option Position} {place goal : Position} {n : Nat}

theorem Binary64.lt_of_not_le {x y : Binary64} (hx : x.isNaN = false) (hy : y.isNaN = false)
    (h : ¬ y ≤ x) : x < y :=
  ⟨hx, hy, Int.lt_of_not_ge fun hle => h ⟨hy, hx, hle⟩⟩

theorem Binary64.lt_of_le_of_lt {x y z : Binary64} (h : x ≤ y) (h' : y < z) : x < z :=
  ⟨h.1, h'.2.1, Int.lt_of_le_of_lt h.2.2 h'.2.2⟩

/-- If the music was played up to a place, or not so far, it resumes there or before. -/
theorem Passage.resume_le (hzero : .zero ≤ place.x) (hone : place.x < .one)
    (h : played.getD .beginning ≤ place) : resume played ≤ place := by
  cases played with
  | none => exact h
  | some a =>
    rw [Option.getD_some] at h
    by_cases hend : Binary64.one ≤ a.x
    · have hresume : resume (some a) = { segment := a.segment + 1, x := .zero } := if_pos hend
      rw [hresume]
      -- the place is not in the segment that is finished
      rcases h with hlt | ⟨-, hx⟩
      · rcases Nat.lt_or_eq_of_le (Nat.succ_le_of_lt hlt) with hlt | heq
        · exact .inl hlt
        · exact .inr ⟨heq, hzero⟩
      · have hlt := Binary64.lt_of_le_of_lt hx hone
        exact absurd hlt (Binary64.not_lt_of_le hend)
    · have hresume : resume (some a) = a := if_neg hend
      rw [hresume]
      exact h

/-- A place on the way is shown on the way. -/
theorem Passage.exists_shows (hsegment : place.segment < score.length) (hzero : .zero ≤ place.x)
    (hone : place.x < .one) (hgoal : goal.Inside) (hplayed : played.getD .beginning ≤ place)
    (hahead : ¬ goal ≤ place) : ∃ p ∈ between score played goal, p.Shows place := by
  have hresume := resume_le hzero hone hplayed
  have hle : place.segment ≤ goal.segment := Nat.le_of_not_lt fun hlt => hahead (.inl hlt)
  have hleft := Position.left_le hresume hzero
  have hright : place.x < goal.right place.segment := by
    unfold Position.right
    by_cases heq : place.segment = goal.segment
    · rw [if_pos heq]
      refine Binary64.lt_of_not_le hone.1 hgoal.1.2.1 fun hx => hahead (.inr ⟨heq.symm, hx⟩)
    · rw [if_neg heq]
      exact hone
  refine ⟨⟨score[place.segment], place.segment, (resume played).left place.segment,
    goal.right place.segment⟩, mem_between_iff.mpr ?_, rfl, hleft, hright⟩
  exact ⟨Position.segment_le hresume, hle, List.getElem?_eq_getElem hsegment, rfl, rfl,
    Binary64.lt_of_le_of_lt hleft hright⟩

/-- A place in front of a mark is on the way to this mark or to an earlier one. -/
theorem exists_way_to_place (hplace : place.Inside) (hn : n ≤ (Roadmap.ofScore score).length)
    (hahead : ¬ goalAt score n ≤ place) :
    ∃ i ≤ n, ((Roadmap.ofScore score).positionBefore? i).getD .beginning ≤ place ∧
      ¬ goalAt score i ≤ place := by
  induction n with
  | zero =>
    refine ⟨0, Nat.le_refl 0, ?_, hahead⟩
    show Position.beginning ≤ place
    exact Position.beginning_le hplace
  | succ n ih =>
    by_cases hle : goalAt score n ≤ place
    · refine ⟨n + 1, Nat.le_refl _, ?_, hahead⟩
      have hm := List.getElem?_eq_getElem (Nat.lt_of_succ_le hn)
      show ((Roadmap.ofScore score).positionAt? n).getD .beginning ≤ place
      rw [Roadmap.positionAt?_of_mark hm, Option.getD_some, ← goalAt_of_mark hm]
      exact hle
    · obtain ⟨i, hi, hway⟩ := ih (Nat.le_of_succ_le hn) hle
      exact ⟨i, Nat.le_succ_of_le hi, hway⟩

/-- Every place is in front of the end of the score. -/
theorem not_goalAt_length_le (hsegment : place.segment < score.length) (hone : place.x < .one) :
    ¬ goalAt score (Roadmap.ofScore score).length ≤ place := by
  rw [goalAt_of_length_le (Nat.le_refl _)]
  rintro (hlt | ⟨-, hx⟩)
  · have hlt : score.length - 1 < place.segment := hlt
    omega
  · exact Binary64.not_lt_of_le hx hone

end Places

/-! ## The places of a performance -/

open Performer

/-- **No music is lost when nothing skips ahead**: a performance that ends by itself plays every
place of the score, in whatever way the repeats, D.C. and D.S. are arranged. -/
theorem perform_loses_nothing {settings : Settings} {score : List Segment}
    (hinside : MarksInside score) (hroad : (Roadmap.ofScore score).NothingSkips)
    (hsettled : Warning.unsettled ∉ (perform settings score).warnings) :
    ∀ place : Position, place.segment < score.length → .zero ≤ place.x → place.x < .one →
      ∃ p ∈ (perform settings score).passages, p.Shows place := by
  intro place hsegment hzero hone
  have hne : score ≠ [] := List.length_pos_iff.mp (Nat.zero_lt_of_lt hsegment)
  have hplace : place.Inside := ⟨hzero, hone.1, hone.2.1, Int.le_of_lt hone.2.2⟩
  obtain ⟨l, a, hcourse, hend, -⟩ := exists_course_of_settled hsettled hne
  obtain ⟨i, hi, hbefore, hahead⟩ :=
    exists_way_to_place hplace (Nat.le_refl _) (not_goalAt_length_le hsegment hone)
  -- the way on which the place is was taken
  obtain ⟨b, hb, rfl, hshown⟩ :=
    hcourse.exists_arrival hroad (Nat.le_trans hi (length_le_of_nothingSkips hroad hend))
  rw [← hshown] at hbefore
  obtain ⟨p, hp, hshows⟩ :=
    Passage.exists_shows hsegment hzero hone (inside_goalAt hinside _) hbefore hahead
  refine ⟨p, ?_, hshows⟩
  rw [passages_of_course hsettled hne hcourse hend]
  refine List.mem_flatMap.mpr ⟨b, hb, ?_⟩
  rw [musicAhead_eq]
  exact hp

/-- Two segments, with a segno in a repeated section and the D.S. at the end. -/
def segnoInRepeat : List Segment :=
  [{ id := default, marks := [{ kind := .repeatForward, x := .zero },
      { kind := .segno none, x := .quarter }] },
    { id := default, marks := [{ kind := .repeatBackward 1, x := .quarter },
      { kind := .dalSegno none, x := .one }] }]

/-- The place of the `:||` is played, too. -/
theorem perform_loses_nothing_segnoInRepeat :
    let place : Position := { segment := 1, x := .quarter }
    MarksInside segnoInRepeat ∧ (Roadmap.ofScore segnoInRepeat).NothingSkips ∧
      Warning.unsettled ∉ (perform {} segnoInRepeat).warnings ∧
      ∃ p ∈ (perform {} segnoInRepeat).passages, p.Shows place := by
  intro place
  have hinside : MarksInside segnoInRepeat := by decide
  have hsettled : Warning.unsettled ∉ (perform {} segnoInRepeat).warnings := by decide
  have hcases {i : Nat} {kind : MarkKind}
      (hkind : (Roadmap.ofScore segnoInRepeat).kindAt? i = some kind) :
      (i, kind) ∈ [(0, .repeatForward), (1, .segno none), (2, .repeatBackward 1),
        (3, .dalSegno none)] := by
    have hlt : i < 4 := Roadmap.lt_length_of_kindAt? hkind
    obtain rfl | rfl | rfl | rfl : i = 0 ∨ i = 1 ∨ i = 2 ∨ i = 3 := by omega
    all_goals
      obtain rfl := Option.some.inj hkind
      decide
  have hroad : (Roadmap.ofScore segnoInRepeat).NothingSkips := by
    constructor
    case noEnding => exact fun i numbers hkind => by simpa using hcases hkind
    case noFine => exact fun i hkind => by simpa using hcases hkind
    case noCoda => exact fun i label hkind => by simpa using hcases hkind
    case segnoBefore =>
      intro i label target hkind htarget
      obtain ⟨rfl, rfl⟩ : i = 3 ∧ label = none := by simpa using hcases hkind
      have hfirst : (Roadmap.ofScore segnoInRepeat).firstSegno? none = some 1 := by decide
      obtain rfl : 1 = target := Option.some.inj (hfirst.symm.trans htarget)
      decide
  exact ⟨hinside, hroad, hsettled,
    perform_loses_nothing hinside hroad hsettled place (by decide) (by decide) (by decide)⟩

/-- A D.S. to a segno that is still to come skips the music up to it. -/
example :
    (perform {} [{ id := default, marks := [{ kind := .dalSegno none, x := .zero },
      { kind := .segno none, x := .one }] }]).passages = [] := by decide

end Playthrough
