import Playthrough.Proofs.Renumbering
import Playthrough.Proofs.Settled
import Playthrough.Proofs.Steps
import Playthrough.Proofs.Stretches

/-!
# Scores put together

If a score leaves no section open, then what is put behind it is played as if it stood
alone: `perform_append`.

The performance of the whole is the course of the first score, and behind it that of the
second score, with all numbers and positions moved up. Both are courses of the whole
roadmap, because the questions that are asked at a mark have their answers on its own side
of the seam. At the seam itself the performer has nothing in mind but the music that was
shown, and the music across it is the end of the first score and the beginning of the
second one.
-/

namespace Playthrough

/-- The mark so many segments further on. -/
def PlacedMark.later (n : Nat) (m : PlacedMark) : PlacedMark := { m with segment := m.segment + n }

/-- The roadmap of the same marks, so many segments further on. -/
def Roadmap.later (n : Nat) (road : Roadmap) : Roadmap := road.map (PlacedMark.later n)

namespace Roadmap

variable {R S road : Roadmap} {i t n : Nat}

/-! ## Two roadmaps -/

theorem ofScore_append (A B : List Segment) :
    ofScore (A ++ B) = ofScore A ++ (ofScore B).later A.length := by
  have hlater : B.zipIdx A.length = B.zipIdx.map fun x => (x.1, x.2 + A.length) := by
    rw [List.zipIdx_eq_map_add]
    exact List.map_congr_left fun x _ => Prod.ext rfl (Nat.add_comm _ _)
  unfold ofScore later
  rw [List.zipIdx_append, List.flatMap_append, Nat.zero_add, hlater, List.flatMap_map,
    List.map_flatMap]
  congr 1
  refine congrArg (List.flatMap · B.zipIdx) (funext fun x => ?_)
  rw [List.map_map]
  rfl

theorem kindAt?_append_left (h : i < R.length) : (R ++ S).kindAt? i = R.kindAt? i := by
  rw [kindAt?, kindAt?, List.getElem?_append_left h]

theorem positionAt?_append_left (h : i < R.length) : (R ++ S).positionAt? i = R.positionAt? i := by
  rw [positionAt?, positionAt?, List.getElem?_append_left h]

theorem getElem?_append_add (R S : Roadmap) (i : Nat) : (R ++ S)[i + R.length]? = S[i]? := by
  rw [List.getElem?_append_right (Nat.le_add_left _ _), Nat.add_sub_cancel]

/-- The marks of the second roadmap come later in number and in place. -/
theorem kindAt?_append_right :
    (R ++ S.later n).kindAt? (i + R.length) = S.kindAt? i := by
  rw [kindAt?, kindAt?, getElem?_append_add, later, List.getElem?_map, Option.map_map]
  rfl

theorem positionAt?_append_right :
    (R ++ S.later n).positionAt? (i + R.length) =
      (S.positionAt? i).map (Position.later n) := by
  rw [positionAt?, positionAt?, getElem?_append_add, later, List.getElem?_map, Option.map_map,
    Option.map_map]
  rfl

theorem firstSegno?_append_eq_none {label : Option String} :
    (R ++ S).firstSegno? label = none ↔
      R.firstSegno? label = none ∧ S.firstSegno? label = none := by
  simp only [firstSegno?, List.findIdx?_eq_none_iff, List.mem_append, or_imp, forall_and]

theorem firstSegno?_later {label : Option String} :
    (S.later n).firstSegno? label = S.firstSegno? label := by
  rw [firstSegno?, firstSegno?, later, List.findIdx?_map]
  rfl

theorem highestEnding_append_left (h : i < R.length) :
    (R ++ S).highestEnding t i = R.highestEnding t i := by
  rw [highestEnding, highestEnding, List.take_append_of_le_length h]

theorem highestEnding_append_right :
    (R ++ S.later n).highestEnding (t + R.length) (i + R.length) =
      S.highestEnding t i := by
  rw [highestEnding, highestEnding, Nat.add_comm t, Nat.add_comm i, Nat.add_assoc,
    List.take_length_add_append, List.drop_length_add_append, later, ← List.map_take,
    ← List.map_drop,
    List.flatMap_map]
  rfl

/-- Neither of two roadmaps has a replay if they have none together. -/
theorem WithoutReplays.of_append (h : (R ++ S).WithoutReplays) :
    R.WithoutReplays ∧ S.WithoutReplays := by
  have hpart {part : Roadmap} (hmem : ∀ m ∈ part, m ∈ R ++ S)
      (hnone : ∀ label, (R ++ S).firstSegno? label = none → part.firstSegno? label = none) :
      part.WithoutReplays := by
    intro m hm
    have hnot := h m (hmem m hm)
    cases hkind : m.kind with
    | daCapo =>
      rw [hkind] at hnot
      cases hnot
    | dalSegno label =>
      rw [hkind] at hnot
      show (part.firstSegno? label).isSome = false
      rw [hnone label (by simpa [startsReplay] using hnot)]
      rfl
    | _ => rfl
  constructor
  · exact hpart (fun m hm => List.mem_append_left S hm) fun _ h =>
      (firstSegno?_append_eq_none.mp h).1
  · exact hpart (fun m hm => List.mem_append_right R hm) fun _ h =>
      (firstSegno?_append_eq_none.mp h).2

theorem WithoutReplays.of_later (h : (S.later n).WithoutReplays) : S.WithoutReplays := by
  intro m hm
  have hnot := h (m.later n) (List.mem_map_of_mem hm)
  have hkind : (m.later n).kind = m.kind := rfl
  rw [hkind] at hnot
  cases hm : m.kind with
  | daCapo =>
    rw [hm] at hnot
    cases hnot
  | dalSegno label =>
    rw [hm] at hnot
    show (S.firstSegno? label).isSome = false
    rw [← firstSegno?_later]
    exact hnot
  | _ => rfl

/-- Every ending bracket is closed later. -/
def EndingsClosed (road : Roadmap) : Prop :=
  ∀ i numbers, road.kindAt? i = some (.volta numbers) →
    ∃ f, i < f ∧ road.kindAt? f = some .finalVoltaEnd

/-- A closed bracket is skipped to a mark. -/
theorem EndingsClosed.nextEndingBoundary_lt (h : road.EndingsClosed) {numbers : List Nat}
    (hkind : road.kindAt? i = some (.volta numbers)) :
    road.nextEndingBoundary i < road.length := by
  obtain ⟨f, hif, hf⟩ := h i numbers hkind
  have hlt := lt_length_of_kindAt? hf
  refine Nat.lt_of_le_of_lt (Nat.le_of_not_lt fun hfb => ?_) hlt
  exact nomatch isEndingBoundary_of_lt_nextEndingBoundary hif hfb hf

end Roadmap

namespace Performer

variable {R S road : Roadmap} {p q a : Performer} {l rest : List Performer} {n : Nat}

/-! ## On either side of the seam -/

theorem renumber_id (p : Performer) : p.renumber id id = p := by
  simp [renumber]

/-- The first roadmap reads alike in front of the second one, up to the seam. -/
theorem readsAlike_left (hroad : (R ++ S).WithoutReplays) (hclosed : R.EndingsClosed)
    (hp : Reached R p) (hin : p.cursor < R.length) : ReadsAlike id id R (R ++ S) p := by
  have hR := hroad.of_append.1
  have hmode := hp.mode_eq hR
  constructor
  case kind => exact Roadmap.kindAt?_append_left hin
  case position => rw [Option.map_id, id_eq]; exact Roadmap.positionAt?_append_left hin
  case next => rfl
  case followed => simp
  case segno =>
    intro label hkind
    have hkind' : (R ++ S).kindAt? p.cursor = some (.dalSegno label) := by
      rw [Roadmap.kindAt?_append_left hin, hkind]
    rw [hR.firstSegno? hkind, hroad.firstSegno? hkind']
    rfl
  case coda => exact fun h => nomatch hmode.symm.trans h
  case boundary =>
    intro _ numbers hkind
    -- the bracket is closed in front of the seam, so that the boundary is there, too
    have hlt := hclosed.nextEndingBoundary_lt hkind
    refine Roadmap.nextEndingBoundary_eq (Roadmap.lt_nextEndingBoundary hin) ?_ ?_ ?_
    · rw [List.length_append]
      exact Nat.le_of_lt (Nat.lt_add_right _ hlt)
    · rcases R.nextEndingBoundary_cases p.cursor with ⟨kind, -, hat, hboundary⟩ | hend
      · exact .inr ⟨kind, by rw [id_eq, Roadmap.kindAt?_append_left hlt, hat], hboundary⟩
      · omega
    · intro k kind hik hk hkind
      rw [Roadmap.kindAt?_append_left (Nat.lt_trans hk hlt)] at hkind
      exact Roadmap.isEndingBoundary_of_lt_nextEndingBoundary hik hk hkind
  case passes => exact fun _ _ t _ => Roadmap.highestEnding_append_left hin
  case ahead => exact fun _ _ => Iff.rfl
  case landing =>
    intro target hmove _
    have hlt : target < R.length := by
      rcases (jumpsTo_of_move hp.bookkeeping hmove).lt_length with hlt | ⟨numbers, hkind, rfl⟩
      · exact hlt
      · exact hclosed.nextEndingBoundary_lt hkind
    rw [Option.map_id, id_eq, id_eq, Roadmap.positionAt?_append_left hlt]
  case top =>
    intro hmove
    exact nomatch hR.kindAt? (kindAt?_of_move_eq_daCapo hmove)

/-- The second roadmap reads alike behind the first one, with all numbers and positions moved
up. -/
theorem readsAlike_right (hroad : (R ++ S.later n).WithoutReplays) (hp : Reached S p)
    (hin : p.cursor < S.length) :
    ReadsAlike (· + R.length) (Position.later n) S (R ++ S.later n) p := by
  have hS := hroad.of_append.2.of_later
  have hmode := hp.mode_eq hS
  have hlength : (R ++ S.later n).length = S.length + R.length := by
    simp [Roadmap.later, Nat.add_comm]
  constructor
  case kind => exact Roadmap.kindAt?_append_right
  case position => exact Roadmap.positionAt?_append_right
  case next => exact Nat.add_right_comm _ _ _
  case followed =>
    rw [(hp.bookkeeping hmode).followed_nil]
    exact fun h => nomatch h
  case segno =>
    intro label hkind
    have hkind' : (R ++ S.later n).kindAt? (p.cursor + R.length) = some (.dalSegno label) := by
      rw [Roadmap.kindAt?_append_right, hkind]
    rw [hS.firstSegno? hkind, hroad.firstSegno? hkind']
    rfl
  case coda => exact fun h => nomatch hmode.symm.trans h
  case boundary =>
    intro _ numbers hkind
    have hle := S.nextEndingBoundary_le p.cursor
    refine Roadmap.nextEndingBoundary_eq
      (Nat.add_lt_add_right (Roadmap.lt_nextEndingBoundary hin) _) (by omega) ?_ ?_
    · rcases S.nextEndingBoundary_cases p.cursor with ⟨kind, -, hat, hboundary⟩ | hend
      · exact .inr ⟨kind, by rw [Roadmap.kindAt?_append_right, hat], hboundary⟩
      · exact .inl (by rw [hend, hlength])
    · intro k kind hik hk hkind
      obtain ⟨j, rfl⟩ : ∃ j, k = j + R.length := ⟨k - R.length, by omega⟩
      rw [Roadmap.kindAt?_append_right] at hkind
      exact Roadmap.isEndingBoundary_of_lt_nextEndingBoundary (Nat.lt_of_add_lt_add_right hik)
        (Nat.lt_of_add_lt_add_right hk) hkind
  case passes => exact fun _ _ t _ => Roadmap.highestEnding_append_right
  case ahead => exact fun target _ => Nat.add_lt_add_iff_right
  case landing => exact fun target _ _ => Roadmap.positionAt?_append_right
  case top =>
    intro hmove
    exact nomatch hS.kindAt? (kindAt?_of_move_eq_daCapo hmove)

/-! ## Courses across the seam -/

/-- Without replays a round leaves the music shown up to some position. -/
theorem exists_shown_of_next? (hroad : road.WithoutReplays) (hnext : p.next? road = some q) :
    ∃ goal, q.shown = some goal := by
  rcases shown_cases_of_next? hnext with ⟨hmove, -⟩ | ⟨_, m, -, hshown⟩
  · exact nomatch hroad.kindAt? (kindAt?_of_move_eq_daCapo hmove)
  · exact ⟨m.position, hshown⟩

/-- The course of the first roadmap is a course of the whole. -/
theorem Course.append_left (hroad : (R ++ S).WithoutReplays) (hclosed : R.EndingsClosed)
    (h : Course R {} l q) : Course (R ++ S) {} l q := by
  have hcourse := h.renumber fun a ha =>
    readsAlike_left hroad hclosed (h.reached a ha) (h.cursor_lt a ha)
  have hid : Performer.renumber id id = id := funext renumber_id
  rw [hid, List.map_id] at hcourse
  exact hcourse

/-- Without replays a performance only ends behind the last mark. -/
theorem length_le_of_end (hroad : R.WithoutReplays) (h : Reached R a) (hend : a.next? R = none) :
    R.length ≤ a.cursor := by
  refine Nat.le_of_not_lt fun hlt => ?_
  rw [next?_of_firstTime (List.getElem?_eq_getElem hlt) (h.mode_eq hroad)] at hend
  cases hend

/-- At its end a performer without a `||:` in mind has nothing in mind but the music that was
shown. -/
theorem eq_of_end (hroad : R.WithoutReplays) (h : Reached R a) (hend : a.next? R = none)
    (hstart : a.repeatStart = none) : a = ({ cursor := R.length } : Performer).showing a.shown := by
  have hkeep := h.upkeep
  have hmode := h.mode_eq hroad
  have hbooks := hkeep.books hmode
  have hcursor : a.cursor = R.length :=
    Nat.le_antisymm hkeep.within (length_le_of_end hroad h hend)
  have hpass : a.pass = 1 := by
    refine Nat.le_antisymm (Nat.le_of_not_lt fun hlt => ?_) hkeep.pass_pos
    -- a higher pass would have a close of endings ahead
    obtain ⟨f, hle, hf⟩ := hkeep.closeAhead hmode hlt
    have := Roadmap.lt_length_of_kindAt? hf
    omega
  have hleft : a.repeatsLeft = none := by
    cases hleft : a.repeatsLeft with
    | none => rfl
    | some k =>
      obtain ⟨t, _, ht, -⟩ := hbooks.counting k hleft
      exact nomatch hstart.symm.trans ht
  have hfollowed := hbooks.followed_nil
  cases a
  simp_all [showing]

/-- The course of the second roadmap is a course of the whole, wherever the music has been
shown up to at the seam. -/
theorem Course.append_right (hroad : (R ++ S.later n).WithoutReplays) (h : Course S {} l q)
    (hrest : l ++ [q] = {} :: rest) (shown : Option Position) :
    ∃ l' q', Course (R ++ S.later n) (({ cursor := R.length } : Performer).showing shown) l' q' ∧
      q'.cursor = q.cursor + R.length ∧
      l' ++ [q'] = ({ cursor := R.length } : Performer).showing shown ::
        rest.map (Performer.renumber (· + R.length) (Position.later n)) := by
  have halike : ∀ a ∈ l, ReadsAlike (· + R.length) (Position.later n) S (R ++ S.later n) a :=
    fun a ha => readsAlike_right hroad (h.reached a ha) (h.cursor_lt a ha)
  have hbegin : (({} : Performer).renumber (· + R.length) (Position.later n)).showing shown =
      ({ cursor := R.length } : Performer).showing shown := by
    simp [Performer.renumber, showing]
  cases h with
  | refl =>
    obtain rfl : rest = [] := by simpa using hrest
    refine ⟨[], _, .refl _, ?_, rfl⟩
    simp [showing]
  | round hnext hcourse =>
    obtain rfl := (List.cons.inj hrest).2
    have hround := (halike _ List.mem_cons_self).next?_renumber (cursor_lt_of_next? hnext) shown
    rw [hnext, hbegin] at hround
    refine ⟨_, _, .round hround (hcourse.renumber fun a ha => halike a (List.mem_cons_of_mem _ ha)),
      rfl, ?_⟩
    simp

/-- **The course of the whole** is the course of the first roadmap and behind it that of the
second one, moved up. -/
theorem exists_course_append {lB : List Performer} {b : Performer}
    (hroad : (R ++ S.later n).WithoutReplays) (hclosed : R.EndingsClosed)
    (hA : Course R {} l a) (hAend : a.next? R = none) (hopen : a.repeatStart = none)
    (hB : Course S {} lB b) (hBend : b.next? S = none) (hrest : lB ++ [b] = {} :: rest) :
    ∃ l' q, Course (R ++ S.later n) {} (l ++ l') q ∧ q.next? (R ++ S.later n) = none ∧
      l' ++ [q] = a :: rest.map (Performer.renumber (· + R.length) (Position.later n)) := by
  have ha := eq_of_end hroad.of_append.1 ⟨l, hA⟩ hAend hopen
  have hBover := length_le_of_end hroad.of_append.2.of_later ⟨lB, hB⟩ hBend
  obtain ⟨l', q, hcourse, hcursor, hl'⟩ := hB.append_right hroad hrest a.shown
  rw [← ha] at hcourse hl'
  refine ⟨l', q, (hA.append_left hroad hclosed).append hcourse, ?_, hl'⟩
  refine next?_eq_none_of_length_le ?_
  rw [hcursor, List.length_append, Roadmap.later, List.length_map]
  omega

/-! ## The music on either side -/

section Music

variable {A B : List Segment}

/-- What is put behind a score does not change the music up to its marks. -/
theorem musicAhead_append_left (hin : p.cursor < (Roadmap.ofScore A).length) :
    musicAhead (A ++ B) (Roadmap.ofScore (A ++ B)) p = musicAhead A (Roadmap.ofScore A) p := by
  have hm := List.getElem?_eq_getElem hin
  have hm' : (Roadmap.ofScore (A ++ B))[p.cursor]? = some (Roadmap.ofScore A)[p.cursor] := by
    rw [Roadmap.ofScore_append, List.getElem?_append_left hin, hm]
  simp only [musicAhead, hm, hm']
  exact Passage.between_append_left (Roadmap.segment_lt_of_mem (List.mem_of_getElem? hm))

/-- The music ahead of a performer that is moved up leads to the position that is moved up. -/
theorem exists_goal_append_right (hne : B ≠ [])
    (hcursor : q.cursor = p.cursor + (Roadmap.ofScore A).length) :
    ∃ goal, musicAhead B (Roadmap.ofScore B) p = Passage.between B p.shown goal ∧
      musicAhead (A ++ B) (Roadmap.ofScore (A ++ B)) q =
        Passage.between (A ++ B) q.shown (goal.later A.length) := by
  have hget : (Roadmap.ofScore (A ++ B))[q.cursor]? =
      (Roadmap.ofScore B)[p.cursor]?.map (PlacedMark.later A.length) := by
    rw [Roadmap.ofScore_append, hcursor, Roadmap.getElem?_append_add, Roadmap.later,
      List.getElem?_map]
  cases hm : (Roadmap.ofScore B)[p.cursor]? with
  | none =>
    rw [hm] at hget
    refine ⟨Position.endOf (B.length - 1), by simp only [musicAhead, hm], ?_⟩
    have hpos := List.length_pos_iff.mpr hne
    have hend : (Position.endOf (B.length - 1)).later A.length =
        Position.endOf ((A ++ B).length - 1) := by
      simp only [Position.later, Position.endOf, List.length_append]
      congr 1
      omega
    simp only [musicAhead, hget, Option.map_none, hend]
  | some m =>
    rw [hm] at hget
    refine ⟨m.position, by simp only [musicAhead, hm], ?_⟩
    simp only [musicAhead, hget, Option.map_some]
    rfl

/-- Behind the seam the music is that of the second score, in its later place. -/
theorem musicAhead_append_right (hne : B ≠ []) (hshown : ∃ position, p.shown = some position) :
    musicAhead (A ++ B) (Roadmap.ofScore (A ++ B))
        (p.renumber (· + (Roadmap.ofScore A).length) (Position.later A.length)) =
      (musicAhead B (Roadmap.ofScore B) p).map (Passage.later A.length) := by
  obtain ⟨position, hshown⟩ := hshown
  have hshown' : (p.renumber (· + (Roadmap.ofScore A).length) (Position.later A.length)).shown =
      some (position.later A.length) := by
    simp only [renumber, hshown, Option.map_some]
  obtain ⟨goal, hmusic, hmusic'⟩ := exists_goal_append_right (A := A) hne
    (show (p.renumber (· + (Roadmap.ofScore A).length) (Position.later A.length)).cursor =
      p.cursor + (Roadmap.ofScore A).length from rfl)
  rw [hmusic, hmusic', hshown, hshown']
  exact Passage.between_append_right

/-- **At the seam** the rest of the first score is played, and then the beginning of the
second one. -/
theorem musicAhead_seam (hneA : A ≠ []) (hneB : B ≠ []) {shown : Option Position}
    (hshown : ∀ position, shown = some position → position.segment < A.length) :
    musicAhead (A ++ B) (Roadmap.ofScore (A ++ B))
        (({ cursor := (Roadmap.ofScore A).length } : Performer).showing shown) =
      musicAhead A (Roadmap.ofScore A)
          (({ cursor := (Roadmap.ofScore A).length } : Performer).showing shown) ++
        (musicAhead B (Roadmap.ofScore B) {}).map (Passage.later A.length) := by
  have hend : (Roadmap.ofScore A)[(Roadmap.ofScore A).length]? = none :=
    List.getElem?_eq_none (Nat.le_refl _)
  obtain ⟨goal, hmusic, hmusic'⟩ := exists_goal_append_right (A := A) (p := {}) hneB
    (show (({ cursor := (Roadmap.ofScore A).length } : Performer).showing shown).cursor =
      ({} : Performer).cursor + (Roadmap.ofScore A).length from (Nat.zero_add _).symm)
  rw [hmusic, hmusic']
  simp only [musicAhead, showing, hend]
  exact Passage.between_append_seam hshown hneA

/-- What was shown at the end of a course is a position of the score. -/
theorem Course.segment_lt {score : List Segment} (h : Course (Roadmap.ofScore score) {} l a)
    (hend : (Roadmap.ofScore score)[a.cursor]? = none) (position : Position)
    (hshown : a.shown = some position) : position.segment < score.length := by
  rcases List.eq_nil_or_concat l with rfl | ⟨before, c, rfl⟩
  · cases h
    cases hshown
  · rw [List.concat_eq_append] at h
    obtain ⟨-, hnext⟩ := h.of_snoc
    obtain ⟨m, hm⟩ := exists_mark_of_next? hnext
    rw [shown_of_next? hm hnext hend] at hshown
    obtain rfl : m.position = position := Option.some.inj hshown
    exact Roadmap.segment_lt_of_mem (List.mem_of_getElem? hm)

/-- Behind the first arrival of a course without replays, music was always shown. -/
theorem Course.forall_shown (hroad : road.WithoutReplays) (h : Course road p l q)
    (hrest : l ++ [q] = p :: rest) : ∀ a ∈ rest, ∃ position, a.shown = some position := by
  have hstep {p q : Performer} (_ : ∃ position, p.shown = some position)
      (hnext : p.next? road = some q) : ∃ position, q.shown = some position :=
    exists_shown_of_next? hroad hnext
  cases h with
  | refl =>
    obtain rfl : rest = [] := by simpa using hrest
    exact fun a ha => nomatch ha
  | round hnext hcourse =>
    obtain rfl := (List.cons.inj hrest).2
    have hfirst := exists_shown_of_next? hroad hnext
    intro a ha
    rcases List.mem_append.mp ha with ha | ha
    · exact hcourse.all hstep hfirst a ha
    · rw [List.mem_singleton.mp ha]
      exact hcourse.preserves hstep hfirst

/-- **The music of the whole** is that of the first score and behind it that of the second one, in
its later place. -/
theorem flatMap_musicAhead_append {lB : List Performer} {b : Performer} (hneA : A ≠ [])
    (hneB : B ≠ []) (hroad : (Roadmap.ofScore B).WithoutReplays)
    (hA : Course (Roadmap.ofScore A) {} l a)
    (ha : a = ({ cursor := (Roadmap.ofScore A).length } : Performer).showing a.shown)
    (hB : Course (Roadmap.ofScore B) {} lB b) (hrest : lB ++ [b] = {} :: rest) :
    (l ++ a :: rest.map (Performer.renumber (· + (Roadmap.ofScore A).length)
          (Position.later A.length))).flatMap (musicAhead (A ++ B) (Roadmap.ofScore (A ++ B))) =
      (l ++ [a]).flatMap (musicAhead A (Roadmap.ofScore A)) ++
        ((({} : Performer) :: rest).flatMap (musicAhead B (Roadmap.ofScore B))).map
          (Passage.later A.length) := by
  have hmusicA : l.flatMap (musicAhead (A ++ B) (Roadmap.ofScore (A ++ B))) =
      l.flatMap (musicAhead A (Roadmap.ofScore A)) :=
    List.flatMap_congr fun c hc => musicAhead_append_left (hA.cursor_lt c hc)
  have hmusicB : (rest.map (Performer.renumber (· + (Roadmap.ofScore A).length)
        (Position.later A.length))).flatMap (musicAhead (A ++ B) (Roadmap.ofScore (A ++ B))) =
      (rest.flatMap (musicAhead B (Roadmap.ofScore B))).map (Passage.later A.length) := by
    rw [List.flatMap_map, List.map_flatMap]
    exact List.flatMap_congr fun c hc =>
      musicAhead_append_right hneB (hB.forall_shown hroad hrest c hc)
  have hseam : musicAhead (A ++ B) (Roadmap.ofScore (A ++ B)) a =
      musicAhead A (Roadmap.ofScore A) a ++
        (musicAhead B (Roadmap.ofScore B) {}).map (Passage.later A.length) := by
    have hover : (Roadmap.ofScore A)[a.cursor]? = none := by
      rw [ha]
      exact List.getElem?_eq_none (Nat.le_refl _)
    have hshown := hA.segment_lt hover
    rw [ha]
    exact musicAhead_seam hneA hneB hshown
  simp only [List.flatMap_append, List.flatMap_cons, List.flatMap_nil, List.append_nil,
    List.map_append, List.append_assoc, hmusicA, hmusicB, hseam]

end Music

end Performer

open Performer

/-- The music of a performance does not depend on the budget, as long as it is enough. -/
theorem passages_eq_of_settled {first second : Settings} {score : List Segment}
    (hfirst : Warning.unsettled ∉ (perform first score).warnings)
    (hsecond : Warning.unsettled ∉ (perform second score).warnings) :
    (perform first score).passages = (perform second score).passages := by
  by_cases hne : score = []
  · subst hne
    rfl
  · obtain ⟨l, a, hcourse, hend, -⟩ := exists_course_of_settled hfirst hne
    rw [passages_of_course hfirst hne hcourse hend, passages_of_course hsecond hne hcourse hend]

/-- **Closed sections do not influence what follows.** If a score has no replays, closes its
ending brackets and leaves no `||:` open, then a score behind it is played as if it stood
alone. -/
theorem perform_append {A B : List Segment} {whole first second : Settings}
    (hroad : (Roadmap.ofScore (A ++ B)).WithoutReplays)
    (hclosed : (Roadmap.ofScore A).EndingsClosed)
    (hopen : (({} : Performer).run (Roadmap.ofScore A)
      (first.budget (Roadmap.ofScore A).length)).last.repeatStart = none)
    (hwhole : Warning.unsettled ∉ (perform whole (A ++ B)).warnings)
    (hfirst : Warning.unsettled ∉ (perform first A).warnings)
    (hsecond : Warning.unsettled ∉ (perform second B).warnings) :
    (perform whole (A ++ B)).passages =
      (perform first A).passages ++
        (perform second B).passages.map (Passage.later A.length) := by
  by_cases hneA : A = []
  · subst hneA
    have hid : Passage.later ([] : List Segment).length = id := rfl
    rw [hid, List.map_id]
    exact passages_eq_of_settled hwhole hsecond
  by_cases hneB : B = []
  · subst hneB
    have hempty : (perform second []).passages = [] := rfl
    rw [List.append_nil] at hwhole ⊢
    rw [hempty, List.map_nil, List.append_nil]
    exact passages_eq_of_settled hwhole hfirst
  have happend := Roadmap.ofScore_append A B
  rw [happend] at hroad
  have hR := hroad.of_append.1
  obtain ⟨lA, a, hA, hAend, hAends⟩ := exists_course_of_settled hfirst hneA
  obtain ⟨lB, b, hB, hBend, -⟩ := exists_course_of_settled hsecond hneB
  have hlast : a.repeatStart = none := by
    cases hAends with
    | ranOff _ _ hlast => exact hlast ▸ hopen
    | unsettled hending => exact absurd hending (ending_ne_unsettled hfirst hneA)
    | fine _ _ hmark =>
      exact absurd hmark (Nat.not_lt.mpr (length_le_of_end hR ⟨lA, hA⟩ hAend))
  have ha := eq_of_end hR ⟨lA, hA⟩ hAend hlast
  obtain ⟨rest, hrest⟩ := hB.exists_cons
  obtain ⟨l, q, hwholeCourse, hwholeEnd, hl⟩ :=
    exists_course_append hroad hclosed hA hAend hlast hB hBend hrest
  rw [← happend] at hwholeCourse hwholeEnd
  have hneAB : A ++ B ≠ [] := by simp [hneA]
  rw [passages_of_course hwhole hneAB hwholeCourse hwholeEnd,
    passages_of_course hfirst hneA hA hAend, passages_of_course hsecond hneB hB hBend,
    List.append_assoc, hl, hrest]
  exact flatMap_musicAhead_append hneA hneB hroad.of_append.2.of_later hA ha hB hrest

/-- One segment, to be played twice. -/
def repeatedSegment : List Segment :=
  [{ id := default, marks := [{ kind := .repeatForward, x := .zero },
    { kind := .repeatBackward 1, x := .one }] }]

/-- Two repeated segments are played one after the other. -/
theorem perform_append_repeatedSegment :
    (Roadmap.ofScore (repeatedSegment ++ repeatedSegment)).WithoutReplays ∧
      (Roadmap.ofScore repeatedSegment).EndingsClosed ∧
      (({} : Performer).run (Roadmap.ofScore repeatedSegment)
        (({} : Settings).budget (Roadmap.ofScore repeatedSegment).length)).last.repeatStart = none ∧
      Warning.unsettled ∉ (perform {} (repeatedSegment ++ repeatedSegment)).warnings ∧
      Warning.unsettled ∉ (perform {} repeatedSegment).warnings ∧
      (perform {} (repeatedSegment ++ repeatedSegment)).passages =
        (perform {} repeatedSegment).passages ++
          (perform {} repeatedSegment).passages.map (Passage.later repeatedSegment.length) := by
  have hroad : (Roadmap.ofScore (repeatedSegment ++ repeatedSegment)).WithoutReplays := by decide
  have hclosed : (Roadmap.ofScore repeatedSegment).EndingsClosed := by
    intro i numbers hkind
    have hlt : i < 2 := Roadmap.lt_length_of_kindAt? hkind
    have hcases : i = 0 ∨ i = 1 := by omega
    rcases hcases with rfl | rfl
    · exact nomatch hkind
    · exact nomatch hkind
  have hopen : (({} : Performer).run (Roadmap.ofScore repeatedSegment)
      (({} : Settings).budget (Roadmap.ofScore repeatedSegment).length)).last.repeatStart =
        none := by
    decide
  have hwhole : Warning.unsettled ∉ (perform {} (repeatedSegment ++ repeatedSegment)).warnings := by
    decide
  have hpart : Warning.unsettled ∉ (perform {} repeatedSegment).warnings := by decide
  exact ⟨hroad, hclosed, hopen, hwhole, hpart,
    perform_append hroad hclosed hopen hwhole hpart hpart⟩

end Playthrough
