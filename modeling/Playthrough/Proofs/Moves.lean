import Playthrough.Proofs.Sections

/-!
# Moves

How a performer leaves a mark, told apart from all that it changes in mind: on to the next
mark, by a jump, by a D.C., or not at all. `Performer.move` reads the move off the mark and
the performer, `makes_of_next?` shows that a round makes this move, and the other lemmas say
where moves lead to: to a mark, unless the performance runs off.
-/

namespace Playthrough

/-! ## Moves -/

/-- How a performer leaves a mark. -/
inductive Move where
  /-- On to the next mark. -/
  | advance
  /-- By a jump: of a repeat, to another pass, past an ending, to a segno or a coda. -/
  | jump (target : Nat)
  /-- By a D.C., back to the beginning of the piece. -/
  | daCapo
  /-- Not at all: the piece is over. -/
  | stop
deriving DecidableEq

namespace Performer

variable {road : Roadmap} {p q : Performer} {m : PlacedMark}

/-- The way from a D.C. -/
def moveAtDaCapo (p : Performer) : Move :=
  if p.cursor ∈ p.followed then .advance else .daCapo

/-- The way from a D.S. -/
def moveAtDalSegno (road : Roadmap) (label : Option String) (p : Performer) : Move :=
  if p.cursor ∈ p.followed then .advance
  else match road.firstSegno? label with
    | some target => .jump target
    | none => .advance

/-- The way from a mark as long as no D.C. or D.S. was followed. -/
def moveFirstTime (road : Roadmap) (kind : MarkKind) (p : Performer) : Move :=
  match kind with
  | .repeatBackward times =>
    match p.repeatStart, p.repeatsLeft.getD times with
    | some target, _ + 1 => .jump target
    | _, _ => .advance
  | .volta numbers =>
    if p.pass ∈ numbers then .advance else .jump (road.nextEndingBoundary p.cursor)
  | .finalVoltaEnd =>
    match p.repeatStart with
    | some target =>
      if p.pass < road.highestEnding target p.cursor then .jump target else .advance
    | none => .advance
  | .daCapo => p.moveAtDaCapo
  | .dalSegno label => p.moveAtDalSegno road label
  | .repeatForward | .segno _ | .coda _ | .toCoda _ | .fine => .advance

/-- The way from a mark once a D.C. or D.S. was followed. -/
def moveReplaying (road : Roadmap) (kind : MarkKind) (p : Performer) : Move :=
  match kind with
  | .daCapo => p.moveAtDaCapo
  | .dalSegno label => p.moveAtDalSegno road label
  | .toCoda label =>
    match road.firstCoda? label with
    | some target => .jump target
    | none => .advance
  | .fine => .stop
  | .repeatForward | .repeatBackward _ | .volta _ | .finalVoltaEnd | .segno _ | .coda _ =>
    .advance

/-- How a performer leaves the mark under the cursor. -/
def move (road : Roadmap) (p : Performer) : Move :=
  match road[p.cursor]? with
  | none => .stop
  | some m =>
    match p.mode with
    | .firstTime => p.moveFirstTime road m.kind
    | .replaying => p.moveReplaying road m.kind

/-- What a move does to the cursor and to what has been shown. -/
def Makes (road : Roadmap) (p : Performer) (r : Reaction) : Move → Prop
  | .advance => r.flow = .goOn ∧ r.performer.cursor = p.cursor + 1 ∧ r.performer.shown = p.shown
  | .jump target => r.flow = .goOn ∧ r.performer.cursor = target ∧
      r.performer.shown = (p.jumpTo road target).shown
  | .daCapo => r.flow = .goOn ∧ r.performer.cursor = 0 ∧ r.performer.shown = none
  | .stop => r.flow = .stop

theorem makes_atDaCapo (road : Roadmap) (p : Performer) :
    Makes road p p.atDaCapo p.moveAtDaCapo := by
  unfold atDaCapo moveAtDaCapo
  split
  · exact ⟨rfl, rfl, rfl⟩
  · exact ⟨rfl, rfl, rfl⟩

theorem makes_atDalSegno (road : Roadmap) (label : Option String) (p : Performer) :
    Makes road p (p.atDalSegno road label) (p.moveAtDalSegno road label) := by
  unfold atDalSegno moveAtDalSegno
  split
  · exact ⟨rfl, rfl, rfl⟩
  · cases road.firstSegno? label with
    | some target => exact ⟨rfl, rfl, rfl⟩
    | none => exact ⟨rfl, rfl, rfl⟩

theorem makes_stepFirstTime (road : Roadmap) (kind : MarkKind) (p : Performer) :
    Makes road p (p.stepFirstTime road kind) (p.moveFirstTime road kind) := by
  cases kind with
  | repeatBackward times =>
    cases hstart : p.repeatStart with
    | none => simp [stepFirstTime, moveFirstTime, atRepeatBackward, hstart, Makes, advance]
    | some target =>
      cases hleft : p.repeatsLeft.getD times with
      | zero =>
        simp [stepFirstTime, moveFirstTime, atRepeatBackward, hstart, hleft, Makes, advance]
      | succ left =>
        simp [stepFirstTime, moveFirstTime, atRepeatBackward, hstart, hleft, Makes, jumpTo]
  | volta numbers =>
    by_cases hpass : p.pass ∈ numbers
    · simp [stepFirstTime, moveFirstTime, atVolta, hpass, Makes, advance]
    · simp [stepFirstTime, moveFirstTime, atVolta, hpass, Makes, jumpTo]
  | finalVoltaEnd =>
    cases hstart : p.repeatStart with
    | none => simp [stepFirstTime, moveFirstTime, atFinalVoltaEnd, hstart, Makes, advance]
    | some target =>
      by_cases hpass : p.pass < road.highestEnding target p.cursor
      · simp [stepFirstTime, moveFirstTime, atFinalVoltaEnd, hstart, hpass, Makes, jumpTo]
      · simp [stepFirstTime, moveFirstTime, atFinalVoltaEnd, hstart, hpass, Makes, advance]
  | daCapo => exact makes_atDaCapo road p
  | dalSegno label => exact makes_atDalSegno road label p
  | _ => exact ⟨rfl, rfl, rfl⟩

theorem makes_stepReplaying (road : Roadmap) (kind : MarkKind) (p : Performer) :
    Makes road p (p.stepReplaying road kind) (p.moveReplaying road kind) := by
  cases kind with
  | daCapo => exact makes_atDaCapo road p
  | dalSegno label => exact makes_atDalSegno road label p
  | toCoda label =>
    cases htarget : road.firstCoda? label with
    | some target => simp [stepReplaying, moveReplaying, htarget, Makes, jumpTo]
    | none => simp [stepReplaying, moveReplaying, htarget, Makes, advance]
  | fine => rfl
  | _ => exact ⟨rfl, rfl, rfl⟩

/-- **A step makes the performer's move.** -/
theorem makes_step (road : Roadmap) (p : Performer) :
    Makes road p (p.step road) (p.move road) := by
  unfold step move
  cases road[p.cursor]? with
  | none => rfl
  | some m =>
    cases hmode : p.mode with
    | firstTime => exact makes_stepFirstTime road m.kind p
    | replaying => exact makes_stepReplaying road m.kind p

/-- The music that was played does not decide where to go. -/
theorem move_playTo (road : Roadmap) (p : Performer) (goal : Position) :
    (p.playTo goal).move road = p.move road := rfl

/-- A round makes the performer's move behind the music up to the mark, and goes on. -/
theorem makes_of_next? (hnext : p.next? road = some q) :
    ∃ m, road[p.cursor]? = some m ∧
      Makes road (p.playTo m.position) { performer := q } (p.move road) := by
  obtain ⟨m, hm, hflow, rfl⟩ := next?_eq_some_iff.mp hnext
  have hmakes := makes_step road (p.playTo m.position)
  rw [move_playTo] at hmakes
  refine ⟨m, hm, ?_⟩
  cases hmove : p.move road with
  | advance =>
    rw [hmove] at hmakes
    exact ⟨rfl, hmakes.2⟩
  | jump target =>
    rw [hmove] at hmakes
    exact ⟨rfl, hmakes.2⟩
  | daCapo =>
    rw [hmove] at hmakes
    exact ⟨rfl, hmakes.2⟩
  | stop =>
    rw [hmove] at hmakes
    cases hflow.symm.trans hmakes

/-! ## Where moves lead to -/

/-- The move of a performer leads to where another one stands. -/
def LeadsTo (road : Roadmap) (p q : Performer) : Prop :=
  match p.move road with
  | .advance => q.cursor = p.cursor + 1
  | .jump target => q.cursor = target
  | .daCapo => q.cursor = 0
  | .stop => False

/-- Every round is taken by the move of the performer. -/
theorem leadsTo_of_next? (hnext : p.next? road = some q) : p.LeadsTo road q := by
  obtain ⟨m, -, hmakes⟩ := makes_of_next? hnext
  unfold LeadsTo
  cases hmove : p.move road with
  | advance => rw [hmove] at hmakes; exact hmakes.2.1
  | jump target => rw [hmove] at hmakes; exact hmakes.2.1
  | daCapo => rw [hmove] at hmakes; exact hmakes.2.1
  | stop => rw [hmove] at hmakes; cases hmakes

/-- Only a Fine ends the piece at a mark. -/
theorem fine_of_next?_eq_none (hm : road[p.cursor]? = some m) (hnext : p.next? road = none) :
    road.kindAt? p.cursor = some .fine ∧ p.move road = .stop := by
  have hflow := flow_of_next?_eq_none hm hnext
  obtain ⟨hmode, hkind⟩ := fine_of_flow_eq_stop (p := p.playTo m.position) hm hflow
  have hmode' : p.mode = .replaying := hmode
  exact ⟨by rw [Roadmap.kindAt?_of_mark hm, hkind],
    by simp [move, hm, hmode', hkind, moveReplaying]⟩

theorem firstSegno?_of_moveAtDalSegno {label : Option String} {target : Nat}
    (h : p.moveAtDalSegno road label = .jump target) : road.firstSegno? label = some target := by
  unfold moveAtDalSegno at h
  split at h
  · cases h
  · split at h
    · rename_i found hfound
      obtain rfl : found = target := by simpa using h
      exact hfound
    · cases h

theorem moveAtDaCapo_ne_jump (p : Performer) (target : Nat) : p.moveAtDaCapo ≠ .jump target := by
  unfold moveAtDaCapo
  split <;> simp

/-- What jumps lead to: the `||:` in mind, the next ending or the close of the endings, a segno
or a coda. -/
inductive JumpsTo (road : Roadmap) (p : Performer) (target : Nat) : Prop where
  | opening (hkind : road.kindAt? target = some .repeatForward)
  | boundary {numbers : List Nat} (hkind : road.kindAt? p.cursor = some (.volta numbers))
      (htarget : target = road.nextEndingBoundary p.cursor)
  | segno {label : Option String} (hkind : road.kindAt? p.cursor = some (.dalSegno label))
      (htarget : road.firstSegno? label = some target)
  | coda {label : Option String} (hmode : p.mode = .replaying)
      (hkind : road.kindAt? p.cursor = some (.toCoda label))
      (htarget : road.firstCoda? label = some target)

theorem jumpsTo_of_move {target : Nat} (hbooks : p.mode = .firstTime → Bookkeeping road p)
    (hmove : p.move road = .jump target) : JumpsTo road p target := by
  have hstart : ∀ t, p.mode = .firstTime → p.repeatStart = some t → JumpsTo road p t :=
    fun t hmode ht => .opening ((hbooks hmode).opened t ht).1
  cases hm : road[p.cursor]? with
  | none => simp [move, hm] at hmove
  | some m =>
    have hat := Roadmap.kindAt?_of_mark hm
    cases hmode : p.mode with
    | firstTime =>
      have hmove : p.moveFirstTime road m.kind = .jump target := by
        simpa only [move, hm, hmode] using hmove
      cases hkind : m.kind with
      | repeatBackward times =>
        simp only [moveFirstTime, hkind] at hmove
        split at hmove
        · rename_i t _ ht _
          obtain rfl : t = target := by simpa using hmove
          exact hstart t hmode ht
        · cases hmove
      | volta numbers =>
        simp only [moveFirstTime, hkind] at hmove
        split at hmove
        · cases hmove
        · exact .boundary (hkind ▸ hat) (by simpa using hmove.symm)
      | finalVoltaEnd =>
        simp only [moveFirstTime, hkind] at hmove
        split at hmove
        · rename_i t ht
          split at hmove
          · obtain rfl : t = target := by simpa using hmove
            exact hstart t hmode ht
          · cases hmove
        · cases hmove
      | daCapo =>
        rw [hkind] at hmove
        exact absurd hmove (moveAtDaCapo_ne_jump p target)
      | dalSegno label =>
        rw [hkind] at hmove
        exact .segno (hkind ▸ hat) (firstSegno?_of_moveAtDalSegno hmove)
      | _ => simp [moveFirstTime, hkind] at hmove
    | replaying =>
      have hmove : p.moveReplaying road m.kind = .jump target := by
        simpa only [move, hm, hmode] using hmove
      cases hkind : m.kind with
      | toCoda label =>
        simp only [moveReplaying, hkind] at hmove
        split at hmove
        · rename_i found hfound
          obtain rfl : found = target := by simpa using hmove
          exact .coda hmode (hkind ▸ hat) hfound
        · cases hmove
      | daCapo =>
        rw [hkind] at hmove
        exact absurd hmove (moveAtDaCapo_ne_jump p target)
      | dalSegno label =>
        rw [hkind] at hmove
        exact .segno (hkind ▸ hat) (firstSegno?_of_moveAtDalSegno hmove)
      | _ => simp [moveReplaying, hkind] at hmove

/-- Jumps lead to marks, but for the skip of an ending. -/
theorem JumpsTo.lt_length {target : Nat} (h : JumpsTo road p target) :
    target < road.length ∨
      ∃ numbers, road.kindAt? p.cursor = some (.volta numbers) ∧
        target = road.nextEndingBoundary p.cursor := by
  cases h with
  | opening hkind => exact .inl (Roadmap.lt_length_of_kindAt? hkind)
  | boundary hkind htarget => exact .inr ⟨_, hkind, htarget⟩
  | segno hkind htarget => exact .inl (Roadmap.lt_length_of_firstSegno? htarget)
  | coda hmode hkind htarget => exact .inl (Roadmap.lt_length_of_firstCoda? htarget)

/-- Only at a D.C. a performer leaves for the top of the piece. -/
theorem kindAt?_of_move_eq_daCapo (h : p.move road = .daCapo) :
    road.kindAt? p.cursor = some .daCapo := by
  have hsegno (label : Option String) : p.moveAtDalSegno road label ≠ .daCapo := by
    unfold moveAtDalSegno
    split
    · simp
    · split <;> simp
  unfold move at h
  cases hm : road[p.cursor]? with
  | none => simp [hm] at h
  | some m =>
    simp only [hm] at h
    rw [Roadmap.kindAt?_of_mark hm]
    cases hmode : p.mode with
    | firstTime =>
      simp only [hmode] at h
      cases hkind : m.kind with
      | daCapo => rfl
      | dalSegno label =>
        rw [hkind] at h
        exact absurd h (hsegno label)
      | repeatBackward times | volta numbers | finalVoltaEnd =>
        simp only [hkind, moveFirstTime] at h
        repeat' split at h
        all_goals cases h
      | _ => simp [hkind, moveFirstTime] at h
    | replaying =>
      simp only [hmode] at h
      cases hkind : m.kind with
      | daCapo => rfl
      | dalSegno label =>
        rw [hkind] at h
        exact absurd h (hsegno label)
      | toCoda label =>
        simp only [hkind, moveReplaying] at h
        split at h
        all_goals cases h
      | _ => simp [hkind, moveReplaying] at h

/-- Behind a round the music has been shown up to some mark, unless a D.C. was followed. -/
theorem shown_cases_of_next? (hnext : p.next? road = some q) :
    (p.move road = .daCapo ∧ q.shown = none) ∨
      ∃ (i : Nat) (m : PlacedMark), road[i]? = some m ∧ q.shown = some m.position := by
  obtain ⟨m, hm, hmakes⟩ := makes_of_next? hnext
  cases hmove : p.move road with
  | advance =>
    rw [hmove] at hmakes
    exact .inr ⟨p.cursor, m, hm, hmakes.2.2⟩
  | jump target =>
    rw [hmove] at hmakes
    rw [show q.shown = _ from hmakes.2.2]
    by_cases hlt : p.cursor < target
    · cases hn : road[target]? with
      | none => exact .inr ⟨p.cursor, m, hm, by simp [jumpTo, playTo, hn]⟩
      | some n => exact .inr ⟨target, n, hn, by simp [jumpTo, playTo, hlt, hn]⟩
    · exact .inr ⟨p.cursor, m, hm, by simp [jumpTo, playTo, hlt]⟩
  | daCapo =>
    rw [hmove] at hmakes
    exact .inl ⟨rfl, hmakes.2.2⟩
  | stop =>
    rw [hmove] at hmakes
    cases hmakes

/-- What is played after the last arrival if no mark is left. -/
theorem shown_of_next? (hm : road[p.cursor]? = some m) (hnext : p.next? road = some q)
    (hover : road[q.cursor]? = none) : q.shown = some m.position := by
  obtain ⟨m', hm', hmakes⟩ := makes_of_next? hnext
  obtain rfl : m = m' := Option.some.inj (hm.symm.trans hm')
  cases hmove : p.move road with
  | advance => rw [hmove] at hmakes; exact hmakes.2.2
  | jump target =>
    rw [hmove] at hmakes
    obtain ⟨-, hcursor, hshown⟩ := hmakes
    rw [show q.cursor = target from hcursor] at hover
    rw [show q.shown = _ from hshown]
    simp [jumpTo, hover, playTo]
  | daCapo =>
    -- a D.C. leads back to a mark, since there is one
    rw [hmove] at hmakes
    obtain ⟨-, hcursor, -⟩ := hmakes
    have hlt := (List.getElem?_eq_some_iff.mp hm).1
    rw [show q.cursor = 0 from hcursor, List.getElem?_eq_none_iff] at hover
    omega
  | stop =>
    rw [hmove] at hmakes
    cases hmakes

/-- How a performance runs off behind the last mark that it reached. -/
theorem ranOff_cases (hreached : Reached road p) (hnext : p.next? road = some q)
    (hover : road[q.cursor]? = none) :
    (p.move road = .advance ∧ p.cursor + 1 = road.length) ∨
      ∃ numbers, road.kindAt? p.cursor = some (.volta numbers) ∧
        p.move road = .jump road.length := by
  obtain ⟨m, hm⟩ := exists_mark_of_next? hnext
  have hlt := cursor_lt_of_next? hnext
  have hleads := leadsTo_of_next? hnext
  rw [List.getElem?_eq_none_iff] at hover
  unfold LeadsTo at hleads
  cases hmove : p.move road with
  | advance =>
    rw [hmove] at hleads
    dsimp only at hleads
    exact .inl ⟨rfl, by omega⟩
  | jump target =>
    rw [hmove] at hleads
    dsimp only at hleads
    rcases (jumpsTo_of_move hreached.bookkeeping hmove).lt_length with
      hin | ⟨numbers, hkind, htarget⟩
    · omega
    · have hle := road.nextEndingBoundary_le p.cursor
      have hend : target = road.length := by omega
      exact .inr ⟨numbers, hkind, by rw [hend]⟩
  | daCapo =>
    rw [hmove] at hleads
    dsimp only at hleads
    omega
  | stop =>
    rw [hmove] at hleads
    exact hleads.elim

end Performer

end Playthrough
