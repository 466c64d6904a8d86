import Playthrough.Proofs.Moves
import Playthrough.Proofs.Places

/-!
# The music of a performance

A performer keeps in mind how far the music has been shown, and whatever lies between
there and the next mark is played. That this is the right music is not obvious: after
a jump the performer only trusts that nothing is left to be played. This module tells
the music of a performance without looking at what was shown, from the marks reached
and from how each of them is left:

- `musicOfMove` is the music that belongs to a move, and `Trace.music` that of a
  whole performance;
- `passages_eq_music`: a performance plays exactly the music of its trace.
-/

namespace Playthrough

/-! ## The music of a move -/

/-- The position of the mark at an index. -/
def Roadmap.positionAt? (road : Roadmap) (i : Nat) : Option Position :=
  road[i]?.map PlacedMark.position

theorem Roadmap.positionAt?_of_mark {road : Roadmap} {i : Nat} {m : PlacedMark}
    (h : road[i]? = some m) : road.positionAt? i = some m.position := by
  simp [positionAt?, h]

/-- The music behind `played` up to the mark at an index. -/
def musicUpTo (score : List Segment) (road : Roadmap) (played : Option Position) (i : Nat) :
    List Passage :=
  match road.positionAt? i with
  | some goal => Passage.between score played goal
  | none => []

/-- The music on the way from the mark `a` to the mark `b`: all that lies between them if
they are neighbours, all from the beginning of the piece after a D.C., and none after a
jump. -/
def musicOfMove (score : List Segment) (road : Roadmap) (a b : Nat) : Move → List Passage
  | .advance => musicUpTo score road (road.positionAt? a) b
  | .daCapo => musicUpTo score road none b
  | .jump _ | .stop => []

section Arrivals

open Performer

variable {score : List Segment} {p q : Performer}

theorem arrivalPassages_eq_musicUpTo (score : List Segment) (road : Roadmap) (p : Performer) :
    arrivalPassages score road p = musicUpTo score road p.shown p.cursor := by
  unfold arrivalPassages musicUpTo Roadmap.positionAt?
  cases road[p.cursor]? <;> rfl

/-- Upon the landing of a jump nothing is left to be played: a jump ahead has moved what
was shown, and a jump back has not. -/
theorem musicUpTo_jumpTo (hscore : HasPlaces score) {m : PlacedMark}
    (hm : (Roadmap.ofScore score)[p.cursor]? = some m) (target : Nat) :
    musicUpTo score (Roadmap.ofScore score)
      ((p.playTo m.position).jumpTo (Roadmap.ofScore score) target).shown target = [] := by
  unfold musicUpTo Roadmap.positionAt?
  cases hn : (Roadmap.ofScore score)[target]? with
  | none => rfl
  | some n =>
    show Passage.between score _ n.position = []
    rcases Nat.lt_or_ge p.cursor target with hlt | hge
    · have hshown : ((p.playTo m.position).jumpTo (Roadmap.ofScore score) target).shown =
          some n.position := by
        simp [jumpTo, playTo, hlt, hn]
      rw [hshown]
      exact Passage.between_self score n.position
    · have hshown : ((p.playTo m.position).jumpTo (Roadmap.ofScore score) target).shown =
          some m.position := by
        simp [jumpTo, playTo, Nat.not_lt.mpr hge]
      rw [hshown]
      rcases Nat.lt_or_eq_of_le hge with hlt | rfl
      · exact Passage.between_eq_nil (Roadmap.position_le_of_lt hscore hn hm hlt)
      · obtain rfl : m = n := Option.some.inj (hm.symm.trans hn)
        exact Passage.between_self score m.position

/-- Nothing is played upon an arrival in front of the mark up to which the music has been
shown. -/
theorem arrivalPassages_eq_nil (hscore : HasPlaces score) {m : PlacedMark} {i : Nat}
    (hm : (Roadmap.ofScore score)[i]? = some m) (hshown : p.shown = some m.position)
    (hlt : p.cursor < i) : arrivalPassages score (Roadmap.ofScore score) p = [] := by
  unfold arrivalPassages
  split
  · rename_i n hn
    rw [hshown]
    exact Passage.between_eq_nil (Roadmap.position_le_of_lt hscore hn hm hlt)
  · rfl

/-- Upon the next mark, the music from the last one is played. -/
theorem arrivalPassages_of_advance {road : Roadmap} {m : PlacedMark} {i : Nat}
    (hm : road[i]? = some m) (hshown : p.shown = some m.position) (hcursor : p.cursor = i + 1) :
    arrivalPassages score road p = musicOfMove score road i (i + 1) .advance := by
  rw [arrivalPassages_eq_musicUpTo, hshown, hcursor]
  show _ = musicUpTo score road (road.positionAt? i) (i + 1)
  rw [Roadmap.positionAt?_of_mark hm]

/-- **The music upon an arrival is that of the move that led to it.** -/
theorem arrivalPassages_of_next? (hscore : HasPlaces score)
    (hnext : p.next? (Roadmap.ofScore score) = some q) :
    arrivalPassages score (Roadmap.ofScore score) q =
      musicOfMove score (Roadmap.ofScore score) p.cursor q.cursor
        (p.move (Roadmap.ofScore score)) := by
  obtain ⟨m, hm, hmakes⟩ := makes_of_next? hnext
  cases hmove : p.move (Roadmap.ofScore score) with
  | advance =>
    rw [hmove] at hmakes
    obtain ⟨-, hcursor, hshown⟩ := hmakes
    rw [arrivalPassages_of_advance hm hshown hcursor]
    show _ = musicOfMove score _ p.cursor q.cursor .advance
    rw [show q.cursor = p.cursor + 1 from hcursor]
  | jump target =>
    rw [hmove] at hmakes
    obtain ⟨-, hcursor, hshown⟩ := hmakes
    rw [arrivalPassages_eq_musicUpTo, show q.cursor = target from hcursor,
      show q.shown = _ from hshown]
    exact musicUpTo_jumpTo hscore hm target
  | daCapo =>
    rw [hmove] at hmakes
    obtain ⟨-, -, hshown⟩ := hmakes
    rw [arrivalPassages_eq_musicUpTo, show q.shown = none from hshown]
    rfl
  | stop =>
    rw [hmove] at hmakes
    cases hmakes

end Arrivals

/-! ## The music of a trace -/

/-- The music of consecutive arrivals, behind the first one. -/
def musicAlong (score : List Segment) (road : Roadmap) : List Performer → List Passage
  | p :: q :: rest =>
    musicOfMove score road p.cursor q.cursor (p.move road) ++ musicAlong score road (q :: rest)
  | _ => []

/-- **The music of a trace**, told from the marks that were reached and the moves that
were made: from the beginning of the piece to the first mark, then move by move, and on
to the end of the piece if the performance ran off behind the last mark that was reached. -/
def Trace.music (score : List Segment) (road : Roadmap) (trace : Trace) : List Passage :=
  (match trace.arrivals.head? with
    | some first => musicUpTo score road none first.cursor
    | none => []) ++
  musicAlong score road trace.arrivals ++
  (match trace.ending with
    | .ranOff =>
      Passage.between score (trace.arrivals.getLast?.bind fun a => road.positionAt? a.cursor)
        (Position.endOf (score.length - 1))
    | .fine | .unsettled => [])

/-- A trace whose arrivals follow each other by their moves, from the first mark of a
roadmap to an end that fits. -/
structure Trace.Follows (road : Roadmap) (trace : Trace) : Prop where
  /-- The first arrival is at the first mark. -/
  first : ∀ a ∈ trace.arrivals.head?, a.cursor = 0
  /-- There is an arrival if there is a mark. -/
  nonempty : trace.arrivals = [] → road = []
  /-- Arrivals are at marks. -/
  marks : ∀ a ∈ trace.arrivals, a.cursor < road.length
  /-- Each arrival is where the move before it leads to. -/
  moves : ∀ before a b after, trace.arrivals = before ++ a :: b :: after → a.LeadsTo road b
  /-- The end is run off by advancing from the last mark, or by skipping an ending behind
  which there is no boundary. -/
  ranOff : trace.ending = .ranOff → ∀ a ∈ trace.arrivals.getLast?,
    (a.move road = .advance ∧ a.cursor + 1 = road.length) ∨
      ∃ numbers, road.kindAt? a.cursor = some (.volta numbers) ∧
        a.move road = .jump road.length
  /-- The end at a Fine is reached by not moving on from the last arrival. -/
  fine : trace.ending = .fine → ∃ a ∈ trace.arrivals.getLast?,
    road.kindAt? a.cursor = some .fine ∧ a.move road = .stop

namespace Performer

variable {score : List Segment} {road : Roadmap} {p q a b : Performer} {l : List Performer}
  {m : PlacedMark}

/-- Along a course the music is that of its moves, behind that of the first arrival. -/
theorem Course.flatMap_arrivalPassages (hscore : HasPlaces score)
    (h : Course (Roadmap.ofScore score) p l q) :
    (l ++ [q]).flatMap (arrivalPassages score (Roadmap.ofScore score)) =
      arrivalPassages score (Roadmap.ofScore score) p ++
        musicAlong score (Roadmap.ofScore score) (l ++ [q]) := by
  induction h with
  | refl p => simp [musicAlong]
  | @round p p' q l hnext hrest ih =>
    obtain ⟨rest, hcons⟩ := hrest.exists_cons
    rw [List.cons_append, List.flatMap_cons, ih, arrivalPassages_of_next? hscore hnext, hcons]
    rfl

/-- The arrivals of a performance are a course, of which the last one is the end. -/
theorem EndsAs.arrivals {budget : Nat} {trace : Trace} (hcourse : Course road p l a)
    (h : EndsAs road budget l a trace) :
    trace.arrivals = [] ∨ ∃ before c, trace.arrivals = before ++ [c] ∧ Course road p before c := by
  have hl : trace.arrivals = l → trace.arrivals = [] ∨
      ∃ before c, trace.arrivals = before ++ [c] ∧ Course road p before c := by
    intro harrivals
    rcases List.eq_nil_or_concat l with rfl | ⟨before, c, rfl⟩
    · exact .inl harrivals
    · rw [List.concat_eq_append] at hcourse harrivals
      exact .inr ⟨before, c, harrivals, (hcourse.of_snoc).1⟩
  cases h with
  | ranOff _ harrivals => exact hl harrivals
  | unsettled _ harrivals => exact hl harrivals
  | fine _ harrivals => exact .inr ⟨l, a, harrivals, hcourse⟩

/-- The passages of arrivals are the music of their moves. -/
theorem flatMap_arrivals {arrivals : List Performer} (hscore : HasPlaces score)
    (h : arrivals = [] ∨ ∃ l c, arrivals = l ++ [c] ∧ Course (Roadmap.ofScore score) {} l c) :
    arrivals.flatMap (arrivalPassages score (Roadmap.ofScore score)) =
      (match arrivals.head? with
        | some first => musicUpTo score (Roadmap.ofScore score) none first.cursor
        | none => []) ++ musicAlong score (Roadmap.ofScore score) arrivals := by
  rcases h with rfl | ⟨l, c, rfl, hcourse⟩
  · rfl
  · obtain ⟨rest, hcons⟩ := hcourse.exists_cons
    rw [hcourse.flatMap_arrivalPassages hscore, hcons, arrivalPassages_eq_musicUpTo]
    rfl

/-- What is played at the end of a performance. -/
theorem EndsAs.closingPassages {budget : Nat} {trace : Trace}
    (hcourse : Course road {} l a) (h : EndsAs road budget l a trace) :
    closingPassages score trace =
      match trace.ending with
      | .ranOff =>
        Passage.between score (trace.arrivals.getLast?.bind fun b => road.positionAt? b.cursor)
          (Position.endOf (score.length - 1))
      | .fine | .unsettled => [] := by
  cases h with
  | unsettled hending => simp [Playthrough.closingPassages, hending]
  | fine hending => simp [Playthrough.closingPassages, hending]
  | ranOff hending harrivals hlast hover =>
    simp only [Playthrough.closingPassages, hending, harrivals, hlast]
    rcases List.eq_nil_or_concat l with rfl | ⟨before, c, rfl⟩
    · cases hcourse
      rfl
    · -- the last mark that was reached is where the music has been shown up to
      rw [List.concat_eq_append] at hcourse ⊢
      obtain ⟨-, hnext⟩ := hcourse.of_snoc
      obtain ⟨m, hm⟩ := exists_mark_of_next? hnext
      rw [shown_of_next? hm hnext hover]
      simp [Roadmap.positionAt?_of_mark hm]

/-- The trace of a performance with some budget follows the roadmap. -/
theorem run_follows (road : Roadmap) {budget : Nat} (hbudget : road ≠ [] → 0 < budget) :
    (({} : Performer).run road budget).Follows road := by
  obtain ⟨l, a, hcourse, hends⟩ := run_endsAs road budget {}
  have harrivals := hends.arrivals hcourse
  constructor
  case first =>
    intro b hb
    rcases harrivals with hnil | ⟨before, c, hl, hbefore⟩
    · rw [hnil] at hb
      cases hb
    · obtain ⟨rest, hcons⟩ := hbefore.exists_cons
      rw [hl, hcons] at hb
      cases hb
      rfl
  case nonempty =>
    intro hnil
    by_cases hroad : road = []
    · exact hroad
    · exfalso
      have hpos := List.length_pos_iff.mpr hroad
      cases hends with
      | ranOff _ hl _ hover =>
        -- without an arrival the performer is still at the first mark
        rw [hnil] at hl
        subst hl
        cases hcourse
        rw [List.getElem?_eq_none_iff] at hover
        exact Nat.not_le_of_lt hpos hover
      | unsettled _ hl _ hspent =>
        have := hbudget hroad
        rw [hnil] at hl
        rw [← hl, List.length_nil] at hspent
        omega
      | fine _ hl => simp [hnil] at hl
  case marks =>
    intro b hb
    cases hends with
    | ranOff _ hl => exact hcourse.cursor_lt b (hl ▸ hb)
    | unsettled _ hl => exact hcourse.cursor_lt b (hl ▸ hb)
    | fine _ hl hmark =>
      rw [hl] at hb
      rcases List.mem_append.mp hb with hb | hb
      · exact hcourse.cursor_lt b hb
      · rw [List.mem_singleton.mp hb]
        exact hmark
  case moves =>
    intro before b c after heq
    rcases harrivals with hnil | ⟨l', c', hl, hbefore⟩
    · simp [hnil] at heq
    · rw [hl] at heq
      exact leadsTo_of_next? (hbefore.next?_of_append_eq heq)
  case ranOff =>
    intro hending b hb
    cases hends with
    | ranOff _ hl _ hover =>
      rw [hl] at hb
      obtain ⟨before, rfl⟩ := List.getLast?_eq_some_iff.mp hb
      obtain ⟨hbefore, hnext⟩ := hcourse.of_snoc
      exact ranOff_cases ⟨before, hbefore⟩ hnext hover
    | unsettled h => exact nomatch h.symm.trans hending
    | fine h => exact nomatch h.symm.trans hending
  case fine =>
    intro hending
    cases hends with
    | ranOff h => exact nomatch h.symm.trans hending
    | unsettled h => exact nomatch h.symm.trans hending
    | fine _ hl hmark hstop =>
      refine ⟨a, by rw [hl]; simp, ?_⟩
      exact fine_of_next?_eq_none (List.getElem?_eq_getElem hmark) hstop

end Performer

/-- A score with a mark has a budget. -/
theorem Settings.budget_pos (settings : Settings) {marks : Nat} (h : 0 < marks) :
    0 < settings.budget marks := by
  have hfactor : 0 < marks * max settings.iterationFactor 1 := Nat.mul_pos h (by omega)
  unfold budget maxBudget
  omega

/-- **A performance plays the music of its trace**, and the trace follows the roadmap:
what a performer keeps in mind of the music that was shown is right after every move and
at every end. A score without marks is played from the beginning to the end. -/
theorem passages_eq_music (settings : Settings) {score : List Segment} (hne : score ≠ [])
    (hscore : HasPlaces score) :
    let road := Roadmap.ofScore score
    let trace := ({} : Performer).run road (settings.budget road.length)
    (perform settings score).passages = trace.music score road ∧
      trace.Follows road ∧
      (road = [] → (perform settings score).passages =
        Passage.between score none (Position.endOf (score.length - 1))) := by
  intro road trace
  obtain ⟨l, a, hcourse, hends⟩ := Performer.run_endsAs road (settings.budget road.length) {}
  have hfollows : trace.Follows road :=
    Performer.run_follows road fun h => settings.budget_pos (List.length_pos_iff.mpr h)
  have hempty : score.isEmpty = false := by simpa using hne
  have hpassages : (perform settings score).passages = trace.music score road := by
    unfold perform Trace.music
    simp only [hempty, Bool.false_eq_true, if_false]
    rw [Performer.flatMap_arrivals hscore (hends.arrivals hcourse),
      hends.closingPassages hcourse]
  refine ⟨hpassages, hfollows, fun hroad => ?_⟩
  have hnone : road[({} : Performer).cursor]? = none := by rw [hroad]; rfl
  have htrace : trace = { arrivals := [], warnings := [], ending := .ranOff, last := {} } :=
    Performer.run_of_none hnone _
  rw [hpassages, htrace]
  rfl

/-- Two segments, the first of which is played again after the second one. -/
def daCapoAlFine : List Segment :=
  [{ id := default, marks := [{ kind := .fine, x := .one }] },
    { id := default, marks := [{ kind := .daCapo, x := .one }] }]

/-- The music of a piece with a D.C. al Fine. -/
theorem passages_eq_music_daCapoAlFine :
    let road := Roadmap.ofScore daCapoAlFine
    let trace := ({} : Performer).run road (({} : Settings).budget road.length)
    daCapoAlFine ≠ [] ∧ HasPlaces daCapoAlFine ∧
      (perform {} daCapoAlFine).passages = trace.music daCapoAlFine road ∧
      trace.Follows road := by
  intro road trace
  obtain ⟨hmusic, hfollows, -⟩ :=
    passages_eq_music {} (show daCapoAlFine ≠ [] by decide) (by decide)
  exact ⟨by decide, by decide, hmusic, hfollows⟩

example : (perform {} daCapoAlFine).passages.map Passage.index = [0, 1, 0] := by decide

end Playthrough
