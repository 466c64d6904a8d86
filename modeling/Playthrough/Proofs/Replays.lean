import Playthrough.Proofs.Merging

/-!
# Replays

Behind a D.C. or D.S. the music is straight-line: whatever repeats and endings there are, and
whatever was followed before, the performance goes from mark to mark up to the first one that
leads away or ends the piece. `Roadmap.replayEnd` is the index of this mark, and
`replays_go_straight` tells what a performance with a budget does behind each of its D.C. and
D.S.
-/

namespace Playthrough

namespace Roadmap

variable {road : Roadmap} {first : Nat}

/-! ## Where a replay leads -/

/-- The marks at which a replay does not go straight on: a Fine, a To Coda with a coda, and the
commands that were not followed before. -/
def interrupts (road : Roadmap) (followed : List Nat) (i : Nat) : MarkKind → Bool
  | .fine => true
  | .toCoda label => (road.firstCoda? label).isSome
  | .daCapo => decide (i ∉ followed)
  | .dalSegno label => (road.firstSegno? label).isSome && decide (i ∉ followed)
  | .repeatForward | .repeatBackward _ | .volta _ | .finalVoltaEnd | .segno _ | .coda _ => false

/-- The mark at this index is one at which a replay does not go straight on. -/
def interruptsAt (road : Roadmap) (followed : List Nat) (i : Nat) : Bool :=
  (road.kindAt? i).any (road.interrupts followed i)

/-- The first index from `first` on at which a replay does not go straight on, or the length of
the roadmap if there is none. -/
def replayEnd (road : Roadmap) (followed : List Nat) (first : Nat) : Nat :=
  ((List.range' first (road.length - first)).find? (road.interruptsAt followed)).getD road.length

/-- Up to its end nothing interrupts a replay. -/
theorem replayEnd_spec (followed : List Nat) (h : first ≤ road.length) :
    first ≤ road.replayEnd followed first ∧ road.replayEnd followed first ≤ road.length ∧
      ∀ i, first ≤ i → i < road.replayEnd followed first →
        road.interruptsAt followed i = false := by
  unfold replayEnd
  cases hfind : (List.range' first (road.length - first)).find? (road.interruptsAt followed) with
  | none =>
    refine ⟨h, Nat.le_refl _, fun i hi hlt => ?_⟩
    rw [Option.getD_none] at hlt
    have hnot := List.find?_range'_eq_none.mp hfind i hi (by omega)
    simpa using hnot
  | some j =>
    obtain ⟨-, hmem, hnot⟩ := List.find?_range'_eq_some.mp hfind
    obtain ⟨hle, hlt⟩ := List.mem_range'_1.mp hmem
    refine ⟨hle, by rw [Option.getD_some]; omega, fun i hi hlt => ?_⟩
    simpa using hnot i hi hlt

end Roadmap

namespace Performer

variable {road : Roadmap} {score : List Segment} {p q a b : Performer} {l : List Performer}

/-! ## Straight on -/

/-- In a replay, a mark that does not interrupt it is passed over. -/
theorem next?_straight {m : PlacedMark} (hm : road[p.cursor]? = some m)
    (hmode : p.mode = .replaying)
    (hfree : road.interruptsAt p.followed p.cursor = false) :
    p.next? road = some (p.playTo m.position).advance := by
  have hfree' : road.interrupts p.followed p.cursor m.kind = false := by
    simpa [Roadmap.interruptsAt, Roadmap.kindAt?_of_mark hm] using hfree
  have hreaction : (p.playTo m.position).step road =
      (p.playTo m.position).stepReplaying road m.kind :=
    step_of_replaying (p := p.playTo m.position) hm hmode
  have hpass : ((p.playTo m.position).stepReplaying road m.kind).flow = .goOn ∧
      ((p.playTo m.position).stepReplaying road m.kind).performer =
        (p.playTo m.position).advance := by
    cases hkind : m.kind with
    | daCapo =>
      rw [hkind] at hfree'
      have hold : p.cursor ∈ p.followed := by simpa [Roadmap.interrupts] using hfree'
      have hold : (p.playTo m.position).cursor ∈ (p.playTo m.position).followed := hold
      simp [stepReplaying, atDaCapo, hold]
    | dalSegno label =>
      rw [hkind] at hfree'
      by_cases hold : (p.playTo m.position).cursor ∈ (p.playTo m.position).followed
      · simp [stepReplaying, atDalSegno, hold]
      · have hnone : road.firstSegno? label = none := by
          have hnot : p.cursor ∉ p.followed := hold
          simpa [Roadmap.interrupts, hnot] using hfree'
        simp [stepReplaying, atDalSegno, hold, hnone]
    | toCoda label =>
      rw [hkind] at hfree'
      have hnone : road.firstCoda? label = none := by simpa [Roadmap.interrupts] using hfree'
      simp [stepReplaying, hnone]
    | fine =>
      rw [hkind] at hfree'
      cases hfree'
    | _ => exact ⟨rfl, rfl⟩
  refine next?_eq_some_iff.mpr ⟨m, hm, ?_, ?_⟩
  · rw [hreaction]
    exact hpass.1
  · rw [hreaction]
    exact hpass.2

/-- A way straight on from `p` to the mark `n` further on, or to the end of the score, and the
music on it behind the arrival at `p`. -/
structure StraightWay (score : List Segment) (n : Nat) (p : Performer) (l : List Performer)
    (q : Performer) (rest : List Performer) : Prop where
  course : Course (Roadmap.ofScore score) p l q
  arrivals : l ++ [q] = p :: rest
  cursors : l.map cursor = List.range' p.cursor n
  cursor : q.cursor = p.cursor + n
  music : ∀ played : Option Position, (played.getD .beginning).Inside →
    played.getD .beginning ≤ goalAt score p.cursor →
      SameMusic
        (Passage.between score played (goalAt score p.cursor) ++
          rest.flatMap (musicAhead score (Roadmap.ofScore score)))
        (Passage.between score played (goalAt score (p.cursor + n)))

theorem StraightWay.refl (score : List Segment) (p : Performer) :
    StraightWay score 0 p [] p [] where
  course := .refl p
  arrivals := rfl
  cursors := rfl
  cursor := rfl
  music played _ _ := by simpa using .refl _

/-- One mark more in front. -/
theorem StraightWay.round {n : Nat} {m : PlacedMark} {rest : List Performer}
    (hscore : MarksInside score) (hm : (Roadmap.ofScore score)[p.cursor]? = some m)
    (hnext : p.next? (Roadmap.ofScore score) = some (p.playTo m.position).advance)
    (h : StraightWay score n (p.playTo m.position).advance l q rest) :
    StraightWay score (n + 1) p (p :: l) q ((p.playTo m.position).advance :: rest) where
  course := .round hnext h.course
  arrivals := by rw [List.cons_append, h.arrivals]
  cursors := by
    rw [List.map_cons, h.cursors, List.range'_succ]
    rfl
  cursor := by
    rw [h.cursor]
    show p.cursor + 1 + n = p.cursor + (n + 1)
    omega
  music played hinside hplayed := by
    have hgoal := goalAt_of_mark hm
    have hrest := h.music (some (goalAt score p.cursor)) (inside_goalAt hscore _)
      (goalAt_le hscore (Nat.le_succ _))
    have hcursor : (p.playTo m.position).advance.cursor + n = p.cursor + (n + 1) := by
      show p.cursor + 1 + n = p.cursor + (n + 1)
      omega
    have hahead : (p.playTo m.position).advance.musicAhead score (Roadmap.ofScore score) =
        Passage.between score (some (goalAt score p.cursor))
          (goalAt score (p.playTo m.position).advance.cursor) := by
      rw [musicAhead_eq, hgoal]
      rfl
    rw [hcursor] at hrest
    rw [List.flatMap_cons, hahead]
    exact ((SameMusic.refl _).append hrest).trans
      (sameMusic_goalAt hscore (Nat.le_add_right _ _) hinside hplayed)

/-- **A replay goes straight on** as long as nothing interrupts it. -/
theorem exists_straightWay (hscore : MarksInside score) {n : Nat} (hmode : p.mode = .replaying)
    (hle : p.cursor + n ≤ (Roadmap.ofScore score).length)
    (hfree : ∀ i, p.cursor ≤ i → i < p.cursor + n →
      (Roadmap.ofScore score).interruptsAt p.followed i = false) :
    ∃ l q rest, StraightWay score n p l q rest := by
  induction n generalizing p with
  | zero => exact ⟨[], p, [], .refl score p⟩
  | succ n ih =>
    have hin : p.cursor < (Roadmap.ofScore score).length := by omega
    have hm := List.getElem?_eq_getElem hin
    have hnext := next?_straight hm hmode (hfree _ (Nat.le_refl _) (by omega))
    obtain ⟨l, q, rest, h⟩ :=
      ih (p := (p.playTo (Roadmap.ofScore score)[p.cursor].position).advance)
      hmode (by simp only [playTo, advance]; omega) fun i hi hlt => by
        simp only [playTo, advance] at hi hlt ⊢
        exact hfree i (by omega) (by omega)
    exact ⟨_, _, _, .round hscore hm hnext h⟩

/-! ## Behind a D.C. or D.S. -/

/-- At `p` a D.C. or D.S. is followed; `landing` is the index of the mark that it leads to, and
`played` the position from which it takes up the music (nothing, at the beginning of the
score). -/
inductive Replays (road : Roadmap) (p : Performer) : Nat → Option Position → Prop where
  | daCapo (hkind : road.kindAt? p.cursor = some .daCapo) (hnew : p.cursor ∉ p.followed) :
      Replays road p 0 none
  | dalSegno {label : Option String} {target : Nat}
      (hkind : road.kindAt? p.cursor = some (.dalSegno label)) (hnew : p.cursor ∉ p.followed)
      (htarget : road.firstSegno? label = some target) :
      Replays road p target (road.positionAt? target)

theorem step_daCapo {m : PlacedMark} (hm : road[p.cursor]? = some m) (hkind : m.kind = .daCapo) :
    p.step road = p.atDaCapo := by
  cases hmode : p.mode <;> simp [step, hm, hmode, hkind, stepFirstTime, stepReplaying]

theorem step_dalSegno {m : PlacedMark} {label : Option String} (hm : road[p.cursor]? = some m)
    (hkind : m.kind = .dalSegno label) : p.step road = p.atDalSegno road label := by
  cases hmode : p.mode <;> simp [step, hm, hmode, hkind, stepFirstTime, stepReplaying]

/-- From its landing on a replay is under way, and its command is among those that were followed.
Up to the landing the music is played from where the replay takes it up. -/
structure Landed (score : List Segment) (p q : Performer) (landing : Nat)
    (played : Option Position) : Prop where
  mode : q.mode = .replaying
  cursor : q.cursor = landing
  followed : q.followed = p.cursor :: p.followed
  within : landing < (Roadmap.ofScore score).length
  music : q.musicAhead score (Roadmap.ofScore score) =
    Passage.between score played (goalAt score landing)
  inside : (played.getD .beginning).Inside
  played_le : played.getD .beginning ≤ goalAt score landing

theorem Replays.landed {landing : Nat} {played : Option Position} (hscore : MarksInside score)
    (h : Replays (Roadmap.ofScore score) p landing played) :
    ∃ q, p.next? (Roadmap.ofScore score) = some q ∧ Landed score p q landing played := by
  cases h with
  | daCapo hkind hnew =>
    obtain ⟨m, hm, hmark⟩ := Roadmap.exists_mark_of_kindAt? hkind
    have hstep : (p.playTo m.position).step (Roadmap.ofScore score) =
        { performer := (p.playTo m.position).follow.restart } := by
      rw [step_daCapo (p := p.playTo m.position) hm hmark]
      exact if_neg hnew
    refine ⟨_, next?_eq_some_iff.mpr ⟨m, hm, by rw [hstep], rfl⟩, ?_⟩
    rw [hstep]
    exact {
      mode := rfl
      cursor := rfl
      followed := rfl
      within := Nat.lt_of_le_of_lt (Nat.zero_le _) (List.getElem?_eq_some_iff.mp hm).1
      music := musicAhead_eq score _
      inside := Position.inside_beginning
      played_le := Position.beginning_le (inside_goalAt hscore 0) }
  | @dalSegno label _ hkind hnew htarget =>
    obtain ⟨m, hm, hmark⟩ := Roadmap.exists_mark_of_kindAt? hkind
    have hstep : (p.playTo m.position).step (Roadmap.ofScore score) =
        { performer := (p.playTo m.position).follow.jumpTo (Roadmap.ofScore score) landing } := by
      have hnew' : (p.playTo m.position).cursor ∉ (p.playTo m.position).followed := hnew
      rw [step_dalSegno (p := p.playTo m.position) hm hmark, atDalSegno, if_neg hnew']
      simp only [htarget]
    have hin := Roadmap.lt_length_of_firstSegno? htarget
    have hn := List.getElem?_eq_getElem hin
    have hplayed : (Roadmap.ofScore score).positionAt? landing = some (goalAt score landing) := by
      rw [Roadmap.positionAt?, hn, goalAt_of_mark hn]
      rfl
    refine ⟨_, next?_eq_some_iff.mpr ⟨m, hm, by rw [hstep], rfl⟩, ?_⟩
    rw [hstep, hplayed]
    exact {
      mode := rfl
      cursor := rfl
      followed := rfl
      within := hin
      music := by
        -- a jump lands where nothing is left to be played
        have hnone := musicUpTo_jumpTo hscore.hasPlaces hm landing
        rw [musicUpTo, hplayed] at hnone
        rw [musicAhead_eq, Passage.between_self]
        exact hnone
      inside := inside_goalAt hscore landing
      played_le := Position.le_refl (inside_goalAt hscore landing) }

/-- What a performance does behind a D.C. or D.S. that leads to `landing`, with the music from
`played`, if `stop` is the end of the replay and `after` are the arrivals behind the command. -/
inductive GoesStraight (score : List Segment) (landing : Nat) (played : Option Position)
    (stop : Nat) (after : List Performer) (trace : Trace) : Prop where
  /-- The performance goes from mark to mark up to the end of the replay. -/
  | stopped {way rest : List Performer} (harrivals : after = way ++ rest)
      (hcursors : way.map cursor = List.range' landing (stop + 1 - landing))
      (hmark : stop < (Roadmap.ofScore score).length)
      (hmusic : SameMusic (way.flatMap (arrivalPassages score (Roadmap.ofScore score)))
        (Passage.between score played (goalAt score stop)))
  /-- The performance goes from mark to mark up to the last one, and ends behind it. -/
  | ranOff (hending : trace.ending = .ranOff)
      (hcursors : after.map cursor = List.range' landing (stop - landing))
      (hend : stop = (Roadmap.ofScore score).length)
      (hmusic : SameMusic
        (after.flatMap (arrivalPassages score (Roadmap.ofScore score)) ++
          closingPassages score trace)
        (Passage.between score played (goalAt score stop)))
  /-- The performance goes from mark to mark until it is broken off. -/
  | brokenOff (hending : trace.ending = .unsettled)
      (hcursors : after.map cursor = List.range' landing after.length)
      (hspent : after.length ≤ stop - landing)
      (hmore : landing + after.length < (Roadmap.ofScore score).length)

/-- The way of a replay to its end, whatever the budget. -/
theorem Landed.exists_way {landing stop : Nat} {played : Option Position}
    (hscore : MarksInside score) (h : Landed score p q landing played)
    (hstop : stop = (Roadmap.ofScore score).replayEnd (p.cursor :: p.followed) landing) :
    ∃ way b, Course (Roadmap.ofScore score) q way b ∧
      way.map Performer.cursor = List.range' landing (stop - landing) ∧ b.cursor = stop ∧
      SameMusic
        (way.flatMap (arrivalPassages score (Roadmap.ofScore score)) ++
          b.musicAhead score (Roadmap.ofScore score))
        (Passage.between score played (goalAt score stop)) := by
  obtain ⟨hle, hlast, hfree⟩ := Roadmap.replayEnd_spec (p.cursor :: p.followed)
    (Nat.le_of_lt h.within)
  rw [← hstop] at hle hlast hfree
  have hcount : landing + (stop - landing) = stop := by omega
  have hcursor := h.cursor
  have hfollowed := h.followed
  obtain ⟨way, b, rest, hway⟩ := exists_straightWay hscore (p := q) (n := stop - landing)
    h.mode (by rw [hcursor, hcount]; exact hlast)
    (by rw [hcursor, hfollowed, hcount]; exact hfree)
  have hcursors := hway.cursors
  have hmusic := hway.music played h.inside (hcursor ▸ h.played_le)
  rw [hcursor] at hcursors
  rw [hcursor, hcount, ← h.music, ← List.flatMap_cons, ← hway.arrivals, List.flatMap_append,
    List.flatMap_singleton] at hmusic
  have hwayMusic : way.flatMap (arrivalPassages score (Roadmap.ofScore score)) =
      way.flatMap (musicAhead score (Roadmap.ofScore score)) :=
    List.flatMap_congr fun c hc => arrivalPassages_eq_musicAhead score (hway.course.cursor_lt c hc)
  refine ⟨way, b, hway.course, hcursors, ?_, ?_⟩
  · rw [hway.cursor, hcursor, hcount]
  · rw [hwayMusic]
    exact hmusic

/-- **A replay is straight-line music up to the next command.** -/
theorem replays_go_straight (hscore : MarksInside score) (budget : Nat)
    {before after : List Performer} {landing : Nat} {played : Option Position}
    (harrivals : (({} : Performer).run (Roadmap.ofScore score) budget).arrivals =
      before ++ p :: after)
    (hreplay : Replays (Roadmap.ofScore score) p landing played) :
    GoesStraight score landing played
      ((Roadmap.ofScore score).replayEnd (p.cursor :: p.followed) landing) after
      (({} : Performer).run (Roadmap.ofScore score) budget) := by
  obtain ⟨q, hnext, hlanded⟩ := hreplay.landed hscore
  obtain ⟨spare, hafter, hending, hlast⟩ := exists_run_behind harrivals hnext
  obtain ⟨hle, hwithin, -⟩ := Roadmap.replayEnd_spec (p.cursor :: p.followed)
    (Nat.le_of_lt hlanded.within)
  generalize hstop : (Roadmap.ofScore score).replayEnd (p.cursor :: p.followed) landing = stop at *
  obtain ⟨way, b, hcourse, hcursors, hcursor, hmusic⟩ := hlanded.exists_way hscore hstop.symm
  have hlength : way.length = stop - landing := by
    rw [← List.length_map (f := cursor), hcursors, List.length_range']
  rcases hcourse.run_cases spare with ⟨spare, rfl⟩ | ⟨hspent, hbroken, hcut⟩
  · obtain ⟨hrun, hend, hat⟩ := hcourse.run spare
    rcases Nat.lt_or_eq_of_le hwithin with hlt | heq
    · have hin : b.cursor < (Roadmap.ofScore score).length := hcursor ▸ hlt
      cases spare with
      | zero =>
        -- the budget is spent in front of the last arrival
        rw [run_zero (List.getElem?_eq_getElem hin)] at hrun hend
        obtain rfl : after = way := by rw [← hafter, hrun, List.append_nil]
        exact .brokenOff (hending.symm.trans hend) (by rw [hcursors, hlength])
          (Nat.le_of_eq hlength) (by omega)
      | succ spare =>
        obtain ⟨tail, htail⟩ := exists_arrivals_cons hin spare
        refine .stopped (show after = (way ++ [b]) ++ tail from ?_) ?_ hlt ?_
        · rw [← hafter, hrun, htail, List.append_assoc]
          rfl
        · have hcount : landing + (stop - landing) = stop := by omega
          rw [List.map_append, hcursors, Nat.succ_sub hle, List.range'_1_concat, hcount,
            List.map_singleton, hcursor]
        · rw [List.flatMap_append, List.flatMap_singleton, arrivalPassages_eq_musicAhead score hin]
          exact hmusic
    · have hover : (Roadmap.ofScore score)[b.cursor]? = none :=
        List.getElem?_eq_none (Nat.le_of_eq (hcursor.trans heq).symm)
      rw [run_of_none hover] at hrun hend hat
      obtain rfl : after = way := by rw [← hafter, hrun, List.append_nil]
      refine .ranOff (hending.symm.trans hend) hcursors heq ?_
      have hclosing : closingPassages score (({} : Performer).run (Roadmap.ofScore score) budget) =
          b.musicAhead score (Roadmap.ofScore score) := by
        simp only [closingPassages, musicAhead, hover, ← hending, ← hlast, hend, hat]
      rw [hclosing]
      exact hmusic
  · have hspent' : after.length = spare := by
      rw [← hafter, hcut, List.length_take, Nat.min_eq_left (Nat.le_of_lt hspent)]
    refine .brokenOff (hending.symm.trans hbroken) ?_ (by omega) (by omega)
    rw [hspent', ← hafter, hcut, List.map_take, hcursors, ← hlength,
      List.take_range'_of_length_ge (Nat.le_of_lt hspent)]

/-- The D.C. al Fine goes from the beginning to the Fine. -/
theorem replays_go_straight_daCapoAlFine :
    let road := Roadmap.ofScore daCapoAlFine
    let p : Performer := { cursor := 1, shown := some (.endOf 0) }
    let q : Performer := { mode := .replaying, followed := [1] }
    MarksInside daCapoAlFine ∧
      (({} : Performer).run road 40).arrivals = [({} : Performer)] ++ p :: [q] ∧
      Replays road p 0 none ∧
      road.replayEnd (p.cursor :: p.followed) 0 = 0 ∧
      GoesStraight daCapoAlFine 0 none 0 [q] (({} : Performer).run road 40) := by
  intro road p q
  have hscore : MarksInside daCapoAlFine := by decide
  have harrivals : (({} : Performer).run road 40).arrivals = [({} : Performer)] ++ p :: [q] := by
    decide
  have hreplay : Replays road p 0 none := .daCapo (by decide) (by decide)
  have hstop : road.replayEnd (p.cursor :: p.followed) 0 = 0 := by decide
  have hstraight := replays_go_straight hscore 40 harrivals hreplay
  exact ⟨hscore, harrivals, hreplay, hstop, hstop ▸ hstraight⟩

end Performer

end Playthrough
