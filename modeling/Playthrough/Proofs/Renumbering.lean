import Playthrough.Proofs.Music

/-!
# Renumbered roadmaps

Two roadmaps may tell a performer the same under other numbers: because music was put in
front, or because marks were taken out. `renumber` is a performer with other numbers of
marks and other positions, `ReadsAlike` says what the two roadmaps must agree on at one
mark, and then the renumbered performer does there what the performer does:
`next?_renumber`.

What has been shown before a mark has no part in this, since the music up to the mark is
played first.
-/

namespace Playthrough

namespace Roadmap

variable {road : Roadmap} {i j : Nat}

/-! ## Questions about a roadmap -/

/-- What makes an index the next ending boundary. -/
theorem nextEndingBoundary_eq (hij : i < j) (hle : j ≤ road.length)
    (hat : j = road.length ∨ ∃ kind, road.kindAt? j = some kind ∧ kind.isEndingBoundary = true)
    (hnone : ∀ k kind, i < k → k < j → road.kindAt? k = some kind →
      kind.isEndingBoundary = false) : road.nextEndingBoundary i = j := by
  rcases Nat.lt_trichotomy (road.nextEndingBoundary i) j with hlt | heq | hgt
  · rcases road.nextEndingBoundary_cases i with ⟨kind, hi, hkind, hboundary⟩ | hend
    · exact absurd hboundary (by simp [hnone _ kind hi hlt hkind])
    · omega
  · exact heq
  · rcases hat with hend | ⟨kind, hkind, hboundary⟩
    · have := road.nextEndingBoundary_le i
      omega
    · rw [isEndingBoundary_of_lt_nextEndingBoundary hij hgt hkind] at hboundary
      cases hboundary

/-- The marks that start a replay when they are reached for the first time. -/
def startsReplay (road : Roadmap) : MarkKind → Bool
  | .daCapo => true
  | .dalSegno label => (road.firstSegno? label).isSome
  | _ => false

/-- No mark starts a replay: there is no D.C., and no D.S. with a segno. -/
def WithoutReplays (road : Roadmap) : Prop := ∀ m ∈ road, road.startsReplay m.kind = false

instance (road : Roadmap) : Decidable road.WithoutReplays :=
  inferInstanceAs (Decidable (∀ m ∈ road, road.startsReplay m.kind = false))

theorem WithoutReplays.kindAt? (h : road.WithoutReplays) {kind : MarkKind}
    (hkind : road.kindAt? i = some kind) : road.startsReplay kind = false := by
  obtain ⟨m, hm, rfl⟩ := exists_mark_of_kindAt? hkind
  exact h m (List.mem_of_getElem? hm)

theorem WithoutReplays.firstSegno? (h : road.WithoutReplays) {label : Option String}
    (hkind : road.kindAt? i = some (.dalSegno label)) : road.firstSegno? label = none := by
  have hnot : (road.firstSegno? label).isSome = false := h.kindAt? hkind
  simpa using hnot

end Roadmap

namespace Performer

/-- Without replays everything is played for the first time. -/
theorem Reached.mode_eq {road : Roadmap} {p : Performer} (h : Reached road p)
    (hroad : road.WithoutReplays) : p.mode = .firstTime := by
  refine h.invariant (I := fun p => p.mode = .firstTime) rfl fun {p q} hp hnext => ?_
  obtain ⟨m, -, hturn⟩ := turn_of_next? hnext
  cases hturn with
  | daCapo hkind hnew => exact nomatch hroad.kindAt? hkind
  | dalSegno hkind hnew htarget =>
    rw [hroad.firstSegno? hkind] at htarget
    cases htarget
  | _ => exact hp

variable {number : Nat → Nat} {place : Position → Position} {road road' : Roadmap}
  {p q : Performer} {l : List Performer}

/-! ## Renumbered performers -/

/-- The performer with other numbers of marks and other positions. -/
def renumber (number : Nat → Nat) (place : Position → Position) (p : Performer) : Performer where
  cursor := number p.cursor
  repeatStart := p.repeatStart.map number
  repeatsLeft := p.repeatsLeft
  pass := p.pass
  mode := p.mode
  shown := p.shown.map place
  followed := p.followed.map number

/-- The same performer when the music has been shown up to somewhere else. -/
def showing (shown : Option Position) (p : Performer) : Performer := { p with shown }

/-- What a renumbered roadmap agrees on with the roadmap at the mark of a performer. -/
structure ReadsAlike (number : Nat → Nat) (place : Position → Position) (road road' : Roadmap)
    (p : Performer) : Prop where
  /-- The mark is of the same kind. -/
  kind : road'.kindAt? (number p.cursor) = road.kindAt? p.cursor
  /-- The mark is at the place that corresponds to its own. -/
  position : road'.positionAt? (number p.cursor) = (road.positionAt? p.cursor).map place
  /-- The next mark comes next. -/
  next : number (p.cursor + 1) = number p.cursor + 1
  /-- The mark is not taken for another one that was followed. -/
  followed : number p.cursor ∈ p.followed.map number → p.cursor ∈ p.followed
  /-- The questions that are asked at the mark have the same answers. -/
  segno : ∀ label, road.kindAt? p.cursor = some (.dalSegno label) →
    road'.firstSegno? label = (road.firstSegno? label).map number
  coda : p.mode = .replaying → ∀ label, road.kindAt? p.cursor = some (.toCoda label) →
    road'.firstCoda? label = (road.firstCoda? label).map number
  boundary : p.mode = .firstTime → ∀ numbers, road.kindAt? p.cursor = some (.volta numbers) →
    road'.nextEndingBoundary (number p.cursor) = number (road.nextEndingBoundary p.cursor)
  passes : p.mode = .firstTime → road.kindAt? p.cursor = some .finalVoltaEnd →
    ∀ t, p.repeatStart = some t →
      road'.highestEnding (number t) (number p.cursor) = road.highestEnding t p.cursor
  /-- Jumps go in the same direction, and those ahead land at the same place. -/
  ahead : ∀ target, p.move road = .jump target →
    (number p.cursor < number target ↔ p.cursor < target)
  landing : ∀ target, p.move road = .jump target → p.cursor < target →
    road'.positionAt? (number target) = (road.positionAt? target).map place
  /-- The top of the piece is the top. -/
  top : p.move road = .daCapo → number 0 = 0

namespace ReadsAlike

variable (h : ReadsAlike number place road road' p)
include h

/-- How far the music has been shown has no part in it. -/
theorem playTo (goal : Position) : ReadsAlike number place road road' (p.playTo goal) where
  kind := h.kind
  position := h.position
  next := h.next
  followed := h.followed
  segno := h.segno
  coda := h.coda
  boundary := h.boundary
  passes := h.passes
  ahead := h.ahead
  landing := h.landing
  top := h.top

theorem mem_followed : number p.cursor ∈ p.followed.map number ↔ p.cursor ∈ p.followed :=
  ⟨h.followed, List.mem_map_of_mem⟩

theorem advance_renumber : (p.renumber number place).advance = p.advance.renumber number place := by
  simp only [advance, renumber, h.next]

end ReadsAlike

/-! ## Reactions -/

theorem jumpTo_renumber {target : Nat}
    (hahead : number p.cursor < number target ↔ p.cursor < target)
    (hland : p.cursor < target →
      road'.positionAt? (number target) = (road.positionAt? target).map place) :
    (p.renumber number place).jumpTo road' (number target) =
      (p.jumpTo road target).renumber number place := by
  by_cases hlt : p.cursor < target
  · have hland' : road'[number target]?.map PlacedMark.position =
        (road[target]?.map PlacedMark.position).map place := hland hlt
    have hlt' : number p.cursor < number target := hahead.mpr hlt
    have hshown : (p.jumpTo road target).shown =
        (road[target]?.map PlacedMark.position).or p.shown := by
      simp [jumpTo, hlt]
    unfold renumber
    rw [hshown]
    simp only [jumpTo, hlt', if_true, hland']
    cases road[target]? <;> rfl
  · have hlt' : ¬ number p.cursor < number target := fun h' => hlt (hahead.mp h')
    simp [jumpTo, renumber, hlt, hlt']

namespace ReadsAlike

variable (h : ReadsAlike number place road road' p)
include h

theorem atDaCapo_renumber (hmove : p.move road = p.moveAtDaCapo) :
    (p.renumber number place).atDaCapo =
      { p.atDaCapo with performer := p.atDaCapo.performer.renumber number place } := by
  by_cases hold : p.cursor ∈ p.followed
  · have hold' : (p.renumber number place).cursor ∈ (p.renumber number place).followed :=
      h.mem_followed.mpr hold
    simp only [atDaCapo, if_pos hold, if_pos hold', h.advance_renumber]
  · have hold' : (p.renumber number place).cursor ∉ (p.renumber number place).followed :=
      fun h' => hold (h.mem_followed.mp h')
    have htop : number 0 = 0 := h.top (by simp [hmove, moveAtDaCapo, hold])
    simp only [atDaCapo, if_neg hold, if_neg hold']
    simp [follow, restart, renumber, htop]

theorem atDalSegno_renumber {label : Option String}
    (hkind : road.kindAt? p.cursor = some (.dalSegno label))
    (hmove : p.move road = p.moveAtDalSegno road label) :
    (p.renumber number place).atDalSegno road' label =
      { p.atDalSegno road label with
        performer := (p.atDalSegno road label).performer.renumber number place } := by
  by_cases hold : p.cursor ∈ p.followed
  · have hold' : (p.renumber number place).cursor ∈ (p.renumber number place).followed :=
      h.mem_followed.mpr hold
    simp only [atDalSegno, if_pos hold, if_pos hold', h.advance_renumber]
  · have hold' : (p.renumber number place).cursor ∉ (p.renumber number place).followed :=
      fun h' => hold (h.mem_followed.mp h')
    simp only [atDalSegno, if_neg hold, if_neg hold', h.segno label hkind]
    cases htarget : road.firstSegno? label with
    | none => simp only [Option.map_none, h.advance_renumber]
    | some target =>
      have hjump : p.move road = .jump target := by simp [hmove, moveAtDalSegno, hold, htarget]
      simp only [Option.map_some]
      rw [← jumpTo_renumber (p := p.follow) (h.ahead target hjump) (h.landing target hjump)]
      rfl

theorem stepFirstTime_renumber {kind : MarkKind} (hmode : p.mode = .firstTime)
    (hkind : road.kindAt? p.cursor = some kind) (hmove : p.move road = p.moveFirstTime road kind) :
    (p.renumber number place).stepFirstTime road' kind =
      { p.stepFirstTime road kind with
        performer := (p.stepFirstTime road kind).performer.renumber number place } := by
  have hjump (target : Nat) (q : Performer) (hq : q.cursor = p.cursor)
      (ht : p.moveFirstTime road kind = .jump target) :
      (q.renumber number place).jumpTo road' (number target) =
        (q.jumpTo road target).renumber number place :=
    jumpTo_renumber (hq ▸ h.ahead target (hmove.trans ht)) (hq ▸ h.landing target (hmove.trans ht))
  cases kind with
  | daCapo => exact h.atDaCapo_renumber hmove
  | dalSegno label => exact h.atDalSegno_renumber hkind hmove
  | repeatForward =>
    simp [stepFirstTime, advance, renumber, h.next]
  | repeatBackward times =>
    have hstart' : (p.renumber number place).repeatStart = p.repeatStart.map number := rfl
    have hleft' : (p.renumber number place).repeatsLeft = p.repeatsLeft := rfl
    cases hstart : p.repeatStart with
    | none => simp [stepFirstTime, atRepeatBackward, hstart, advance, renumber, h.next]
    | some target =>
      rw [hstart] at hstart'
      cases hleft : p.repeatsLeft.getD times with
      | zero =>
        simp only [stepFirstTime, atRepeatBackward, hstart, hstart', hleft', hleft]
        simp [advance, renumber, h.next]
      | succ left =>
        simp only [stepFirstTime, atRepeatBackward, hstart, hstart', hleft', hleft,
          Option.map_some]
        rw [← hjump target { p with repeatStart := some target, repeatsLeft := some left }
          rfl (by simp [moveFirstTime, hstart, hleft])]
        rfl
  | volta numbers =>
    by_cases hpass : p.pass ∈ numbers
    · have hpass' : (p.renumber number place).pass ∈ numbers := hpass
      simp only [stepFirstTime, atVolta, if_pos hpass, if_pos hpass', h.advance_renumber]
    · have hpass' : (p.renumber number place).pass ∉ numbers := hpass
      simp only [stepFirstTime, atVolta, if_neg hpass, if_neg hpass']
      rw [← hjump _ p rfl (by simp [moveFirstTime, hpass]), ← h.boundary hmode numbers hkind]
      rfl
  | finalVoltaEnd =>
    have hstart' : (p.renumber number place).repeatStart = p.repeatStart.map number := rfl
    have hpass' : (p.renumber number place).pass = p.pass := rfl
    have hcursor' : (p.renumber number place).cursor = number p.cursor := rfl
    cases hstart : p.repeatStart with
    | none => simp [stepFirstTime, atFinalVoltaEnd, hstart, advance, renumber, h.next]
    | some target =>
      rw [hstart] at hstart'
      have hpasses := h.passes hmode hkind target hstart
      simp only [stepFirstTime, atFinalVoltaEnd, hstart, hstart', hpass', hcursor',
        Option.map_some, Option.getD_some, hpasses]
      by_cases hmore : p.pass < road.highestEnding target p.cursor
      · rw [if_pos hmore, if_pos hmore,
          ← hjump target { p with repeatStart := some target, pass := p.pass + 1 }
            rfl (by simp [moveFirstTime, hstart, hmore])]
        rfl
      · rw [if_neg hmore, if_neg hmore]
        simp [advance, renumber, h.next]
  | segno label | coda label | toCoda label | fine =>
    simp [stepFirstTime, h.advance_renumber]

theorem stepReplaying_renumber {kind : MarkKind} (hmode : p.mode = .replaying)
    (hkind : road.kindAt? p.cursor = some kind) (hmove : p.move road = p.moveReplaying road kind) :
    (p.renumber number place).stepReplaying road' kind =
      { p.stepReplaying road kind with
        performer := (p.stepReplaying road kind).performer.renumber number place } := by
  cases kind with
  | daCapo => exact h.atDaCapo_renumber hmove
  | dalSegno label => exact h.atDalSegno_renumber hkind hmove
  | toCoda label =>
    have hcoda := h.coda hmode label hkind
    cases htarget : road.firstCoda? label with
    | none =>
      rw [htarget] at hcoda
      simp [stepReplaying, htarget, hcoda, h.advance_renumber]
    | some target =>
      rw [htarget] at hcoda
      have hjump : p.move road = .jump target := by simp [hmove, moveReplaying, htarget]
      simp only [stepReplaying, htarget, hcoda, Option.map_some]
      rw [← jumpTo_renumber (h.ahead target hjump) (h.landing target hjump)]
  | fine => rfl
  | repeatForward | repeatBackward times | volta numbers | finalVoltaEnd | segno label
  | coda label => simp [stepReplaying, h.advance_renumber]

/-- **A renumbered performer reacts alike.** -/
theorem step_renumber (hin : p.cursor < road.length) :
    (p.renumber number place).step road' =
      { p.step road with performer := (p.step road).performer.renumber number place } := by
  obtain ⟨m, hm⟩ : ∃ m, road[p.cursor]? = some m := ⟨_, List.getElem?_eq_getElem hin⟩
  have hkind := Roadmap.kindAt?_of_mark hm
  obtain ⟨m', hm', hkind'⟩ := Roadmap.exists_mark_of_kindAt? (h.kind.trans hkind)
  have hm' : road'[(p.renumber number place).cursor]? = some m' := hm'
  cases hmode : p.mode with
  | firstTime =>
    have hmode' : (p.renumber number place).mode = .firstTime := hmode
    simp only [step, hm, hm', hmode, hmode', hkind']
    exact h.stepFirstTime_renumber hmode hkind (by simp only [move, hm, hmode])
  | replaying =>
    have hmode' : (p.renumber number place).mode = .replaying := hmode
    simp only [step, hm, hm', hmode, hmode', hkind']
    exact h.stepReplaying_renumber hmode hkind (by simp only [move, hm, hmode])

/-- **A renumbered performer goes the same round**, wherever the music has been shown up to
before. -/
theorem next?_renumber (hin : p.cursor < road.length) (shown : Option Position) :
    ((p.renumber number place).showing shown).next? road' =
      (p.next? road).map (renumber number place) := by
  obtain ⟨m, hm⟩ : ∃ m, road[p.cursor]? = some m := ⟨_, List.getElem?_eq_getElem hin⟩
  obtain ⟨m', hm', hkind'⟩ :=
    Roadmap.exists_mark_of_kindAt? (h.kind.trans (Roadmap.kindAt?_of_mark hm))
  have hplace : m'.position = place m.position := by
    have hposition := h.position
    rw [Roadmap.positionAt?, Roadmap.positionAt?, hm, hm'] at hposition
    exact Option.some.inj hposition
  have hstep := (h.playTo m.position).step_renumber hin
  -- once the music up to the mark is played, the renumbered performer is at the new place
  have hplay : ((p.renumber number place).showing shown).playTo m'.position =
      (p.playTo m.position).renumber number place := by
    rw [hplace]
    rfl
  have hm'' : road'[((p.renumber number place).showing shown).cursor]? = some m' := hm'
  simp only [next?, hm, hm'', hplay, hstep]
  cases ((p.playTo m.position).step road).flow <;> rfl

end ReadsAlike

/-! ## Courses -/

/-- **A course can be renumbered** if the roadmaps read alike at all its arrivals. -/
theorem Course.renumber (h : Course road p l q)
    (halike : ∀ a ∈ l, ReadsAlike number place road road' a) :
    Course road' (p.renumber number place) (l.map (Performer.renumber number place))
      (q.renumber number place) := by
  induction h with
  | refl p => exact .refl _
  | @round p p' q l hnext hrest ih =>
    have hround := (halike p List.mem_cons_self).next?_renumber (cursor_lt_of_next? hnext)
      (p.shown.map place)
    rw [hnext] at hround
    exact .round hround (ih fun a ha => halike a (List.mem_cons_of_mem p ha))

end Performer

end Playthrough
