import Playthrough.Proofs.Music
import Playthrough.Proofs.Settled
import Playthrough.Proofs.Stretches

/-!
# The same music

Where a stretch of music is cut into passages is of no consequence to the listener. Two lists
of passages are `SameMusic` if they agree once every passage is joined with the next one that
goes on where it ends, places being compared as numbers.

- `SameMusic.append`: music can be exchanged for the same music;
- `sameMusic_between`: on the way from one position to another one, the music may be cut at
  any position between them.
-/

namespace Playthrough

/-! ## Spans -/

/-- A stretch of a segment in numbers. Both zeros are the same place. -/
structure Span where
  /-- The index of the segment. -/
  index : Nat
  /-- Where the stretch begins. -/
  start : Int
  /-- Where the stretch ends. -/
  stop : Int
deriving DecidableEq

namespace Span

variable {a b : Span} {l l' m m' : List Span}

/-- The other span goes on where this one ends. -/
def LeadsUpTo (a b : Span) : Prop := a.index = b.index ∧ a.stop = b.start

instance (a b : Span) : Decidable (a.LeadsUpTo b) := inferInstanceAs (Decidable (_ ∧ _))

/-- The span from the beginning of one span to the end of another one. -/
def through (a b : Span) : Span := { a with stop := b.stop }

/-- Puts a span in front, in one with the first span if that goes on where it ends. -/
def put (a : Span) : List Span → List Span
  | [] => [a]
  | b :: rest => if a.LeadsUpTo b then a.through b :: rest else a :: b :: rest

/-- Joins every span with the next one if that goes on where it ends. -/
def merge (l : List Span) : List Span := l.foldr put []

/-- Two spans that are in one may be put in front one after the other. -/
theorem put_put (h : a.LeadsUpTo b) (l : List Span) : put a (put b l) = put (a.through b) l := by
  cases l with
  | nil => simp [put, h]
  | cons c l =>
    -- the two together lead up to what the second one leads up to
    have hthrough : (a.through b).LeadsUpTo c ↔ b.LeadsUpTo c := by
      simp only [LeadsUpTo, through, h.1]
    by_cases hc : b.LeadsUpTo c
    · have ha : a.LeadsUpTo (b.through c) := h
      simp only [put, if_pos hc, if_pos ha, if_pos (hthrough.mpr hc)]
      rfl
    · have hc' : ¬ (a.through b).LeadsUpTo c := fun h' => hc (hthrough.mp h')
      simp only [put, if_neg hc, if_pos h, if_neg hc']

theorem foldr_put_put (a : Span) (l m : List Span) :
    (put a l).foldr put m = put a (l.foldr put m) := by
  cases l with
  | nil => rfl
  | cons b l =>
    by_cases h : a.LeadsUpTo b
    · have hput : put a (b :: l) = a.through b :: l := if_pos h
      rw [hput, List.foldr_cons, List.foldr_cons, put_put h]
    · have hput : put a (b :: l) = a :: b :: l := if_neg h
      rw [hput, List.foldr_cons]

/-- What was joined before is joined. -/
theorem foldr_put_merge (l m : List Span) : (merge l).foldr put m = l.foldr put m := by
  induction l with
  | nil => rfl
  | cons a l ih =>
    show (put a (merge l)).foldr put m = _
    rw [foldr_put_put, ih, List.foldr_cons]

/-- Joining is a congruence for lists one after the other. -/
theorem merge_append (hl : merge l = merge l') (hm : merge m = merge m') :
    merge (l ++ m) = merge (l' ++ m') := by
  have hcut (l m : List Span) : merge (l ++ m) = (merge l).foldr put (merge m) := by
    rw [foldr_put_merge, merge, List.foldr_append]
    rfl
  rw [hcut, hcut, hl, hm]

/-- The span of a segment between two places, if it has any width. -/
def cut (index : Nat) (start stop : Int) : List Span :=
  if start < stop then [{ index, start, stop }] else []

/-- A span may be cut between its ends. -/
theorem merge_cut {i : Nat} {x y z : Int} (hxy : x ≤ y) (hyz : y ≤ z) :
    merge (cut i x y ++ cut i y z) = merge (cut i x z) := by
  rcases Int.lt_or_eq_of_le hxy with hlt | rfl
  · rcases Int.lt_or_eq_of_le hyz with hlt' | rfl
    · have hlt'' := Int.lt_trans hlt hlt'
      simp [cut, hlt, hlt', hlt'', merge, put, LeadsUpTo, through]
    · simp [cut]
  · simp [cut]

end Span

/-- The stretch that a passage plays. -/
def Passage.span (p : Passage) : Span := ⟨p.index, p.startX.rank, p.endX.rank⟩

/-- Two lists of passages that only differ in where the music is cut. -/
def SameMusic (l l' : List Passage) : Prop :=
  Span.merge (l.map Passage.span) = Span.merge (l'.map Passage.span)

instance (l l' : List Passage) : Decidable (SameMusic l l') :=
  inferInstanceAs (Decidable (_ = _))

namespace SameMusic

variable {l l' l'' m m' : List Passage}

theorem refl (l : List Passage) : SameMusic l l := rfl

theorem symm (h : SameMusic l l') : SameMusic l' l := Eq.symm h

theorem trans (h : SameMusic l l') (h' : SameMusic l' l'') : SameMusic l l'' := Eq.trans h h'

/-- Music can be exchanged for the same music. -/
theorem append (h : SameMusic l l') (h' : SameMusic m m') : SameMusic (l ++ m) (l' ++ m') := by
  unfold SameMusic at *
  rw [List.map_append, List.map_append]
  exact Span.merge_append h h'

end SameMusic

/-! ## Places inside of the segments -/

/-- The position is not outside of its segment. -/
def Position.Inside (p : Position) : Prop := Binary64.zero ≤ p.x ∧ p.x ≤ .one

instance (p : Position) : Decidable p.Inside := inferInstanceAs (Decidable (_ ∧ _))

/-- The beginning of the score. -/
def Position.beginning : Position := { segment := 0, x := .zero }

/-- Every mark is drawn inside of its segment. -/
def MarksInside (score : List Segment) : Prop :=
  ∀ s ∈ score, ∀ m ∈ s.marks, Binary64.zero ≤ m.x ∧ m.x ≤ .one

instance (score : List Segment) : Decidable (MarksInside score) :=
  inferInstanceAs (Decidable (∀ s ∈ score, ∀ m ∈ s.marks, _ ∧ _))

theorem MarksInside.hasPlaces {score : List Segment} (h : MarksInside score) : HasPlaces score :=
  fun s hs m hm => (h s hs m hm).1.2.1

namespace Position

variable {p q r : Position}

theorem inside_beginning : Inside beginning := by decide

theorem inside_endOf (i : Nat) : (endOf i).Inside :=
  (by decide : Binary64.zero ≤ .one ∧ Binary64.one ≤ .one)

theorem le_refl (h : p.Inside) : p ≤ p := .inr ⟨rfl, h.1.2.1, h.1.2.1, Int.le_refl _⟩

theorem le_trans (h : p ≤ q) (h' : q ≤ r) : p ≤ r := by
  rcases h with h | ⟨heq, hp, hq, hle⟩
  · rcases h' with h' | ⟨heq', -⟩
    · exact .inl (Nat.lt_trans h h')
    · exact .inl (heq' ▸ h)
  · rcases h' with h' | ⟨heq', -, hr, hle'⟩
    · exact .inl (heq ▸ h')
    · exact .inr ⟨heq.trans heq', hp, hr, Int.le_trans hle hle'⟩

theorem segment_le (h : p ≤ q) : p.segment ≤ q.segment := by
  rcases h with hlt | ⟨heq, -⟩
  · exact Nat.le_of_lt hlt
  · exact Nat.le_of_eq heq

theorem beginning_le (h : p.Inside) : beginning ≤ p := by
  rcases Nat.eq_zero_or_pos p.segment with heq | hpos
  · exact .inr ⟨heq.symm, h.1⟩
  · exact .inl hpos

end Position

/-! ## Music in numbers -/

/-- Where the music behind a position begins in a segment. -/
def Position.left (p : Position) (i : Nat) : Binary64 := if i = p.segment then p.x else .zero

/-- Where the music up to a position ends in a segment. -/
def Position.right (p : Position) (i : Nat) : Binary64 := if i = p.segment then p.x else .one

theorem Passage.within_eq (start goal : Position) (s : Segment) (i : Nat) :
    within start goal s i =
      if start.left i < goal.right i then
        some { segment := s, index := i, startX := start.left i, endX := goal.right i }
      else none := rfl

/-- What is played of a segment between two positions. -/
def spansWithin (segments : Nat) (start goal : Position) (i : Nat) : List Span :=
  if i < segments then Span.cut i (start.left i).rank (goal.right i).rank else []

/-- The spans from one position to another one, in a score with so many segments. -/
def spansBetween (segments : Nat) (start goal : Position) : List Span :=
  (List.range' start.segment (goal.segment + 1 - start.segment)).flatMap
    (spansWithin segments start goal)

section Spans

variable {score : List Segment} {start mid goal : Position} {played : Option Position} {i : Nat}

theorem Position.Inside.left (h : start.Inside) (i : Nat) :
    Binary64.zero ≤ start.left i ∧ start.left i ≤ .one := by
  unfold Position.left
  split
  · exact h
  · exact inside_beginning

theorem Position.Inside.right (h : goal.Inside) (i : Nat) :
    Binary64.zero ≤ goal.right i ∧ goal.right i ≤ .one := by
  unfold Position.right
  split
  · exact h
  · exact inside_endOf 0

/-- A passage has a width if its ends are different as numbers. -/
theorem map_span_within (hstart : start.Inside) (hgoal : goal.Inside) (i : Nat) :
    (score[i]?.bind fun s => Passage.within start goal s i).toList.map Passage.span =
      spansWithin score.length start goal i := by
  have hleft := (hstart.left i).1.2.1
  have hright := (hgoal.right i).1.2.1
  by_cases hi : i < score.length
  · rw [List.getElem?_eq_getElem hi, Option.bind_some, Passage.within_eq, spansWithin, if_pos hi,
      Span.cut]
    by_cases hlt : start.left i < goal.right i
    · rw [if_pos hlt, if_pos hlt.2.2]
      rfl
    · rw [if_neg hlt, if_neg fun h => hlt ⟨hleft, hright, h⟩]
      rfl
  · rw [List.getElem?_eq_none (Nat.le_of_not_lt hi), spansWithin, if_neg hi]
    rfl

theorem map_span_filterMap (hstart : start.Inside) (hgoal : goal.Inside) (l : List Nat) :
    (l.filterMap fun i => score[i]?.bind fun s => Passage.within start goal s i).map
      Passage.span = l.flatMap (spansWithin score.length start goal) := by
  rw [List.filterMap_eq_flatMap_toList, List.map_flatMap]
  exact List.flatMap_congr fun i _ => map_span_within hstart hgoal i

/-- The segments on a way are those in front of one of them, this one, and those behind it. -/
theorem flatMap_range'_cut {α : Type} (f : Nat → List α) {first mid last : Nat} (hfm : first ≤ mid)
    (hml : mid ≤ last) :
    (List.range' first (last + 1 - first)).flatMap f =
      (List.range' first (mid - first)).flatMap f ++
        (f mid ++ (List.range' (mid + 1) (last - mid)).flatMap f) := by
  have hcount : last + 1 - first = (mid - first) + ((last - mid) + 1) := by omega
  have hmid : first + (mid - first) = mid := by omega
  rw [hcount, ← List.range'_append_1, hmid, List.range'_succ, List.flatMap_append,
    List.flatMap_cons]

/-- Of a finished segment nothing is played. -/
theorem spansBetween_of_finished (n : Nat) (hend : Binary64.one ≤ start.x) (hgoal : goal.Inside) :
    spansBetween n start goal =
      spansBetween n { segment := start.segment + 1, x := .zero } goal := by
  unfold spansBetween
  dsimp only
  rcases Nat.lt_or_ge goal.segment start.segment with hlt | hge
  · have hnone : goal.segment + 1 - start.segment = 0 := by omega
    have hnone' : goal.segment + 1 - (start.segment + 1) = 0 := by omega
    rw [hnone, hnone']
    rfl
  · have hleft : start.left start.segment = start.x := if_pos rfl
    have hnot : ¬ (start.left start.segment).rank < (goal.right start.segment).rank := by
      have hright := (hgoal.right start.segment).2.2.2
      have hstart := hend.2.2
      rw [hleft]
      omega
    have hfirst : spansWithin n start goal start.segment = [] := by
      rw [spansWithin, Span.cut, if_neg hnot, ite_self]
    rw [flatMap_range'_cut _ (Nat.le_refl _) hge, Nat.sub_self, hfirst, Nat.add_sub_add_right]
    refine List.flatMap_congr fun i hi => ?_
    have hne : i ≠ start.segment := Nat.ne_of_gt (List.mem_range'_1.mp hi).1
    have hleft' : start.left i = .zero := if_neg hne
    have hnext : ({ segment := start.segment + 1, x := .zero } : Position).left i = .zero :=
      ite_self _
    rw [spansWithin, spansWithin, hleft', hnext]

/-- In numbers, it makes no difference that behind a finished segment the music goes on at the
beginning of the next one. -/
theorem map_span_between (hstart : (played.getD .beginning).Inside) (hgoal : goal.Inside) :
    (Passage.between score played goal).map Passage.span =
      spansBetween score.length (played.getD .beginning) goal := by
  cases played with
  | none =>
    rw [Passage.between_eq]
    exact map_span_filterMap hstart hgoal _
  | some p =>
    rw [Option.getD_some] at hstart ⊢
    by_cases hend : Binary64.one ≤ p.x
    · have hresume : Passage.resume (some p) = { segment := p.segment + 1, x := .zero } :=
        if_pos hend
      rw [Passage.between_eq, hresume, spansBetween_of_finished _ hend hgoal]
      have hnext : ({ segment := p.segment + 1, x := .zero } : Position).Inside :=
        Position.inside_beginning
      exact map_span_filterMap hnext hgoal _
    · have hresume : Passage.resume (some p) = p := if_neg hend
      rw [Passage.between_eq, hresume]
      exact map_span_filterMap hstart hgoal _

/-- On the way to a position, the music begins to the left of it. -/
theorem Position.left_le (h : start ≤ mid) (hzero : .zero ≤ mid.x) :
    start.left mid.segment ≤ mid.x := by
  unfold Position.left
  rcases h with hlt | ⟨heq, hle⟩
  · rw [if_neg (Nat.ne_of_gt hlt)]
    exact hzero
  · rw [if_pos heq.symm]
    exact hle

/-- On the way from a position, the music ends to the right of it. -/
theorem Position.le_right (h : mid ≤ goal) (hone : mid.x ≤ .one) :
    mid.x ≤ goal.right mid.segment := by
  unfold Position.right
  rcases h with hlt | ⟨heq, hle⟩
  · rw [if_neg (Nat.ne_of_lt hlt)]
    exact hone
  · rw [if_pos heq]
    exact hle

/-- In the segment in which the music is cut, both parts are in one. -/
theorem merge_spansWithin (n : Nat) (hsm : start ≤ mid) (hmg : mid ≤ goal) (hmid : mid.Inside) :
    Span.merge (spansWithin n start mid mid.segment ++ spansWithin n mid goal mid.segment) =
      Span.merge (spansWithin n start goal mid.segment) := by
  have hleft : mid.left mid.segment = mid.x := if_pos rfl
  have hright : mid.right mid.segment = mid.x := if_pos rfl
  unfold spansWithin
  by_cases hin : mid.segment < n
  · simp only [if_pos hin, hleft, hright]
    exact Span.merge_cut (Position.left_le hsm hmid.1).2.2 (Position.le_right hmg hmid.2).2.2
  · simp only [if_neg hin, List.append_nil]

/-- In front of the segment of the cut, the music goes on to the right edge either way. -/
theorem spansWithin_of_lt (n : Nat) (hmg : mid ≤ goal) (hi : i < mid.segment) :
    spansWithin n start mid i = spansWithin n start goal i := by
  have hle := Position.segment_le hmg
  have hmid : mid.right i = .one := if_neg (Nat.ne_of_lt hi)
  have hgoal : goal.right i = .one := if_neg (Nat.ne_of_lt (Nat.lt_of_lt_of_le hi hle))
  rw [spansWithin, spansWithin, hmid, hgoal]

/-- Behind the segment of the cut, the music comes from the left edge either way. -/
theorem spansWithin_of_gt (n : Nat) (hsm : start ≤ mid) (hi : mid.segment < i) :
    spansWithin n mid goal i = spansWithin n start goal i := by
  have hle := Position.segment_le hsm
  have hmid : mid.left i = .zero := if_neg (Nat.ne_of_gt hi)
  have hstart : start.left i = .zero := if_neg (Nat.ne_of_gt (Nat.lt_of_le_of_lt hle hi))
  rw [spansWithin, spansWithin, hmid, hstart]

/-- In numbers, the way from one position to another one may be cut on the way. -/
theorem merge_spansBetween (n : Nat) (hsm : start ≤ mid) (hmg : mid ≤ goal) (hmid : mid.Inside) :
    Span.merge (spansBetween n start mid ++ spansBetween n mid goal) =
      Span.merge (spansBetween n start goal) := by
  have hle := Position.segment_le hsm
  have hle' := Position.segment_le hmg
  have hbefore : (List.range' start.segment (mid.segment - start.segment)).flatMap
        (spansWithin n start mid) =
      (List.range' start.segment (mid.segment - start.segment)).flatMap
        (spansWithin n start goal) := by
    refine List.flatMap_congr fun i hi => spansWithin_of_lt n hmg ?_
    have := (List.mem_range'_1.mp hi).2
    omega
  have hbehind : (List.range' (mid.segment + 1) (goal.segment - mid.segment)).flatMap
        (spansWithin n mid goal) =
      (List.range' (mid.segment + 1) (goal.segment - mid.segment)).flatMap
        (spansWithin n start goal) :=
    List.flatMap_congr fun i hi => spansWithin_of_gt n hsm (List.mem_range'_1.mp hi).1
  have hcut := merge_spansWithin n hsm hmg hmid
  unfold spansBetween
  rw [flatMap_range'_cut _ hle (Nat.le_refl _), flatMap_range'_cut _ (Nat.le_refl _) hle',
    flatMap_range'_cut _ hle hle', hbefore, hbehind, Nat.sub_self]
  simp only [List.range'_zero, List.flatMap_nil, List.append_nil, List.nil_append]
  rw [List.append_assoc, ← List.append_assoc (spansWithin n start mid mid.segment)]
  exact Span.merge_append rfl (Span.merge_append hcut rfl)

/-- **The music may be cut at any position on the way.** -/
theorem sameMusic_between (hsm : played.getD .beginning ≤ mid) (hmg : mid ≤ goal)
    (hplayed : (played.getD .beginning).Inside) (hmid : mid.Inside) (hgoal : goal.Inside) :
    SameMusic
      (Passage.between score played mid ++ Passage.between score (some mid) goal)
      (Passage.between score played goal) := by
  have hrest : (Passage.between score (some mid) goal).map Passage.span =
      spansBetween score.length mid goal := map_span_between hmid hgoal
  unfold SameMusic
  rw [List.map_append, map_span_between hplayed hmid, map_span_between hplayed hgoal, hrest]
  exact merge_spansBetween score.length hsm hmg hmid

/-- Only how many segments there are makes a difference to the music between two positions. -/
theorem sameMusic_of_length {score' : List Segment} (hlength : score'.length = score.length)
    (hplayed : (played.getD .beginning).Inside) (hgoal : goal.Inside) :
    SameMusic (Passage.between score' played goal) (Passage.between score played goal) := by
  rw [SameMusic, map_span_between hplayed hgoal, map_span_between hplayed hgoal, hlength]

end Spans

/-! ## The music ahead -/

section Goals

variable {score : List Segment} {played : Option Position} {i j : Nat}

/-- Where the music in front of a mark leads to: up to the mark, or to the end of the score if
there is none. -/
def goalAt (score : List Segment) (i : Nat) : Position :=
  ((Roadmap.ofScore score).positionAt? i).getD (.endOf (score.length - 1))

theorem goalAt_of_mark {m : PlacedMark} (hm : (Roadmap.ofScore score)[i]? = some m) :
    goalAt score i = m.position := by
  rw [goalAt, Roadmap.positionAt?_of_mark hm, Option.getD_some]

theorem goalAt_of_length_le (h : (Roadmap.ofScore score).length ≤ i) :
    goalAt score i = .endOf (score.length - 1) := by
  simp [goalAt, Roadmap.positionAt?, List.getElem?_eq_none h]

theorem inside_goalAt (hscore : MarksInside score) (i : Nat) : (goalAt score i).Inside := by
  cases hm : (Roadmap.ofScore score)[i]? with
  | none =>
    rw [goalAt_of_length_le (List.getElem?_eq_none_iff.mp hm)]
    exact Position.inside_endOf _
  | some m =>
    rw [goalAt_of_mark hm]
    obtain ⟨s, hs, hmark⟩ := Roadmap.exists_segment_of_mem (List.mem_of_getElem? hm)
    exact hscore s (List.mem_of_getElem? hs) m.mark hmark

/-- A later mark is not in front of an earlier one, nor is the end of the score. -/
theorem goalAt_le (hscore : MarksInside score) (hij : i ≤ j) : goalAt score i ≤ goalAt score j := by
  rcases Nat.lt_or_eq_of_le hij with hlt | rfl
  · cases hm : (Roadmap.ofScore score)[i]? with
    | none =>
      have hle := List.getElem?_eq_none_iff.mp hm
      rw [goalAt_of_length_le hle, goalAt_of_length_le (Nat.le_trans hle hij)]
      exact Position.le_refl (Position.inside_endOf _)
    | some m =>
      cases hn : (Roadmap.ofScore score)[j]? with
      | none =>
        -- the mark is in the last segment at most
        have hsegment := Roadmap.segment_lt_of_mem (List.mem_of_getElem? hm)
        have hinside := inside_goalAt hscore i
        rw [goalAt_of_mark hm] at hinside ⊢
        rw [goalAt_of_length_le (List.getElem?_eq_none_iff.mp hn)]
        rcases Nat.lt_or_ge m.segment (score.length - 1) with hlt | hge
        · exact .inl hlt
        · exact .inr ⟨Nat.le_antisymm (Nat.le_sub_one_of_lt hsegment) hge, hinside.2⟩
      | some n =>
        rw [goalAt_of_mark hm, goalAt_of_mark hn]
        exact Roadmap.position_le_of_lt hscore.hasPlaces hm hn hlt
  · exact Position.le_refl (inside_goalAt hscore i)

theorem Performer.musicAhead_eq (score : List Segment) (p : Performer) :
    p.musicAhead score (Roadmap.ofScore score) =
      Passage.between score p.shown (goalAt score p.cursor) := by
  cases hm : (Roadmap.ofScore score)[p.cursor]? with
  | none =>
    rw [goalAt_of_length_le (List.getElem?_eq_none_iff.mp hm)]
    simp only [musicAhead, hm]
  | some m =>
    rw [goalAt_of_mark hm]
    simp only [musicAhead, hm]

/-- The music may be cut at any mark on the way to a later one. -/
theorem sameMusic_goalAt (hscore : MarksInside score) (hij : i ≤ j)
    (hinside : (played.getD .beginning).Inside)
    (hplayed : played.getD .beginning ≤ goalAt score i) :
    SameMusic
      (Passage.between score played (goalAt score i) ++
        Passage.between score (some (goalAt score i)) (goalAt score j))
      (Passage.between score played (goalAt score j)) :=
  sameMusic_between hplayed (goalAt_le hscore hij) hinside (inside_goalAt hscore i)
    (inside_goalAt hscore j)

end Goals

end Playthrough
