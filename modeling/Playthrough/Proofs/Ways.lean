import Playthrough.Proofs.Coverage

/-!
# The way between two positions

What is played on the way from one position to another one is the music between them: every
place between them once, from left to right, and no other place. The start belongs to the way
and the goal does not, so that two ways of which one begins where the other ends are one.

- `Passage.playOn_eq`: playing on leaves alone what was played before;
- `Passage.between_pairwise`: one passage for a segment, from left to right;
- `Passage.exists_shows_iff`: the places on the way are those between its ends;
- `Passage.merge_append_between`: the way may be taken in two parts;
- `Passage.between_plays_the_way`: all of this together.
-/

namespace Playthrough

/-! ## Positions before one another -/

/-- A position is before another one if its segment comes first, or if it is in the same segment
and further to the left. -/
instance : LT Position :=
  ⟨fun p q => p.segment < q.segment ∨ (p.segment = q.segment ∧ p.x < q.x)⟩

instance (p q : Position) : Decidable (p ≤ q) := inferInstanceAs (Decidable (_ ∨ (_ ∧ _)))

instance (p q : Position) : Decidable (p < q) := inferInstanceAs (Decidable (_ ∨ (_ ∧ _)))

namespace Position

variable {p q : Position}

theorem not_le_of_lt (h : p < q) : ¬ q ≤ p := by
  rintro (hseg | ⟨heq, hle⟩)
  · rcases h with hlt | ⟨heq, -⟩ <;> omega
  · rcases h with hlt | ⟨-, hlt⟩
    · omega
    · exact Binary64.not_lt_of_le hle hlt

/-- A place to the right of where the music begins is behind the start of the way. -/
theorem le_of_left_le (hsegment : p.segment ≤ q.segment) (h : p.left q.segment ≤ q.x) : p ≤ q := by
  rcases Nat.lt_or_eq_of_le hsegment with hlt | heq
  · exact .inl hlt
  · have hleft : p.left q.segment = p.x := if_pos heq.symm
    exact .inr ⟨heq, hleft ▸ h⟩

/-- A place to the left of where the music ends is in front of the end of the way. -/
theorem lt_of_lt_right (hsegment : p.segment ≤ q.segment) (h : p.x < q.right p.segment) :
    p < q := by
  rcases Nat.lt_or_eq_of_le hsegment with hlt | heq
  · exact .inl hlt
  · have hright : q.right p.segment = q.x := if_pos heq
    exact .inr ⟨heq, hright ▸ h⟩

end Position

/-! ## Spans of different segments -/

/-- Where every span is of a later segment than the one before, there is nothing to join. -/
theorem Span.merge_eq_self {l : List Span} (h : l.Pairwise fun a b => a.index < b.index) :
    Span.merge l = l := by
  induction l with
  | nil => rfl
  | cons a l ih =>
    obtain ⟨ha, hl⟩ := List.pairwise_cons.mp h
    show Span.put a (Span.merge l) = a :: l
    rw [ih hl]
    cases l with
    | nil => rfl
    | cons b l =>
      have hnot : ¬ a.LeadsUpTo b := fun hleads =>
        Nat.ne_of_lt (ha b List.mem_cons_self) hleads.1
      exact if_neg hnot

namespace Passage

variable {score : List Segment} {played : Option Position} {mid goal place : Position}

/-! ## Playing on -/

/-- Plays the part of one more segment that lies on the way, if it has any width. -/
def playSegment (start goal : Position) (out : List Passage) (s : Segment × Nat) : List Passage :=
  match within start goal s.1 s.2 with
  | some p => out ++ [p]
  | none => out

/-- Plays on from what was played, one segment of the way after the other. -/
def playOn (score : List Segment) (played : Option Position) (goal : Position)
    (out : List Passage) : List Passage :=
  let start := resume played
  let touched := (score.drop start.segment).take (goal.segment + 1 - start.segment)
  (touched.zipIdx start.segment).foldl (playSegment start goal) out

theorem foldl_playSegment (start goal : Position) (l : List (Segment × Nat)) (out : List Passage) :
    l.foldl (playSegment start goal) out =
      out ++ l.filterMap fun (s, index) => within start goal s index := by
  induction l generalizing out with
  | nil => exact (List.append_nil out).symm
  | cons s l ih =>
    rw [List.foldl_cons, ih, List.filterMap_cons]
    cases hwithin : within start goal s.1 s.2 with
    | none => simp only [playSegment, hwithin]
    | some p => simp only [playSegment, hwithin, List.append_assoc, List.singleton_append]

/-- **Playing on leaves alone what was played before**, and adds the passages of the way. -/
theorem playOn_eq (score : List Segment) (played : Option Position) (goal : Position)
    (out : List Passage) : playOn score played goal out = out ++ between score played goal :=
  foldl_playSegment _ _ _ _

/-! ## From left to right -/

/-- There is at most one passage for each segment, and those of later segments come later. -/
theorem between_pairwise (score : List Segment) (played : Option Position) (goal : Position) :
    (between score played goal).Pairwise fun a b => a.index < b.index := by
  have hindex {i : Nat} {p : Passage}
      (hp : p ∈ score[i]?.bind fun s => within (resume played) goal s i) : p.index = i := by
    obtain ⟨s, -, hwithin⟩ := Option.bind_eq_some_iff.mp hp
    rw [within_eq] at hwithin
    obtain ⟨-, hp⟩ := Option.ite_none_right_eq_some.mp hwithin
    rw [← Option.some.inj hp]
  rw [between_eq]
  refine List.Pairwise.filterMap _ ?_ List.pairwise_lt_range'
  intro i j hij a ha b hb
  rw [hindex ha, hindex hb]
  exact hij

/-- Passages of different segments have no place in common. -/
theorem Shows.index_eq {a b : Passage} (ha : a.Shows place) (hb : b.Shows place) :
    a.index = b.index := ha.1.trans hb.1.symm

/-! ## The places on the way -/

/-- The music resumes where it was left, or behind it. -/
theorem le_resume (h : (played.getD .beginning).Inside) :
    played.getD .beginning ≤ resume played := by
  cases played with
  | none => exact Position.le_refl h
  | some a =>
    by_cases hend : Binary64.one ≤ a.x
    · have hresume : resume (some a) = { segment := a.segment + 1, x := .zero } := if_pos hend
      rw [hresume]
      exact .inl (Nat.lt_succ_self a.segment)
    · have hresume : resume (some a) = a := if_neg hend
      rw [hresume]
      exact Position.le_refl h

/-- **The places that are shown on the way are those between its ends**, the first one
included. -/
theorem exists_shows_iff (hplayed : (played.getD .beginning).Inside) (hgoal : goal.Inside)
    (hsegment : goal.segment < score.length) (hzero : .zero ≤ place.x) (hone : place.x < .one) :
    (∃ p ∈ between score played goal, p.Shows place) ↔
      played.getD .beginning ≤ place ∧ place < goal := by
  constructor
  · rintro ⟨p, hp, hindex, hstart, hstop⟩
    obtain ⟨hlo, hhi, -, hleft, hright, -⟩ := mem_between_iff.mp hp
    rw [hindex] at hlo hhi hleft hright
    rw [hleft] at hstart
    rw [hright] at hstop
    have hresume : resume played ≤ place := Position.le_of_left_le hlo hstart
    exact ⟨Position.le_trans (le_resume hplayed) hresume, Position.lt_of_lt_right hhi hstop⟩
  · rintro ⟨hle, hlt⟩
    have hin : place.segment < score.length := by
      rcases hlt with hlt | ⟨heq, -⟩ <;> omega
    exact exists_shows hin hzero hone hgoal hle (Position.not_le_of_lt hlt)

/-! ## Ways in two parts -/

/-- **The way may be taken in two parts**: joined where they meet, the passages are those of the
whole way. -/
theorem merge_append_between (hpm : played.getD .beginning ≤ mid) (hmg : mid ≤ goal)
    (hplayed : (played.getD .beginning).Inside) (hmid : mid.Inside) (hgoal : goal.Inside) :
    Span.merge ((between score played mid ++ between score (some mid) goal).map span) =
      (between score played goal).map span := by
  have hwhole : Span.merge ((between score played goal).map span) =
      (between score played goal).map span :=
    Span.merge_eq_self (List.pairwise_map.mpr (between_pairwise score played goal))
  rw [← hwhole]
  exact sameMusic_between hpm hmg hplayed hmid hgoal

/-! ## The whole way -/

/-- **On the way from one position to another one the music between them is played**: behind what
was played before, in passages from left to right that have no place in common, every place from
the start on and in front of the goal and no other. So the way may be cut at any position. -/
theorem between_plays_the_way (hplayed : (played.getD .beginning).Inside) (hgoal : goal.Inside)
    (hsegment : goal.segment < score.length) :
    let way := between score played goal
    (∀ out, playOn score played goal out = out ++ way) ∧
      (∀ p ∈ way, score[p.index]? = some p.segment) ∧
      (way.Pairwise fun a b => a.index < b.index) ∧
      (way.Pairwise fun a b => ∀ place, ¬ (a.Shows place ∧ b.Shows place)) ∧
      (∀ place : Position, .zero ≤ place.x → place.x < .one →
        ((∃ p ∈ way, p.Shows place) ↔ played.getD .beginning ≤ place ∧ place < goal)) ∧
      ∀ mid : Position, mid.Inside → played.getD .beginning ≤ mid → mid ≤ goal →
        ∃ parts,
          (∀ out, playOn score (some mid) goal (playOn score played mid out) = out ++ parts) ∧
            Span.merge (parts.map span) = way.map span := by
  intro way
  have hpairwise : way.Pairwise fun a b => a.index < b.index := between_pairwise score played goal
  refine ⟨playOn_eq score played goal, ?_, hpairwise, ?_, ?_, ?_⟩
  · intro p hp
    exact (mem_between_iff.mp hp).2.2.1
  · refine hpairwise.imp fun hlt place hshows => ?_
    exact Nat.ne_of_lt hlt (hshows.1.index_eq hshows.2)
  · intro place hzero hone
    exact exists_shows_iff hplayed hgoal hsegment hzero hone
  · intro mid hmid hpm hmg
    refine ⟨between score played mid ++ between score (some mid) goal, fun out => ?_, ?_⟩
    · rw [playOn_eq, playOn_eq, List.append_assoc]
    · exact merge_append_between hpm hmg hplayed hmid hgoal

/-- From the right edge of the first segment into the third one, by way of the second one: the
place at which the way is cut is shown, and the passages on both sides of it are in one. -/
theorem between_plays_the_way_threeSegments :
    let score : List Segment := [{ id := default }, { id := default }, { id := default }]
    let played : Option Position := some (.endOf 0)
    let mid : Position := { segment := 1, x := .quarter }
    let goal : Position := { segment := 2, x := .quarter }
    (played.getD .beginning).Inside ∧ goal.Inside ∧ mid.Inside ∧
      played.getD .beginning ≤ mid ∧ mid < goal ∧
      (∃ p ∈ between score played goal, p.Shows mid) ∧
      ∃ parts, playOn score (some mid) goal (playOn score played mid []) = parts ∧
        parts.length = 3 ∧
        Span.merge (parts.map span) = (between score played goal).map span := by
  intro score played mid goal
  have hplayed : (played.getD .beginning).Inside := by decide
  have hgoal : goal.Inside := by decide
  have hmid : mid.Inside := by decide
  have hpm : played.getD .beginning ≤ mid := by decide
  have hmg : mid < goal := by decide
  have hsegment : goal.segment < score.length := by decide
  obtain ⟨-, -, -, -, hplaces, hparts⟩ := between_plays_the_way hplayed hgoal hsegment
  obtain ⟨parts, hout, hmerge⟩ := hparts mid hmid hpm (by decide)
  refine ⟨hplayed, hgoal, hmid, hpm, hmg, (hplaces mid (by decide) (by decide)).mpr ⟨hpm, hmg⟩,
    parts, hout [], ?_, hmerge⟩
  rw [← List.nil_append parts, ← hout []]
  decide

end Passage

end Playthrough
