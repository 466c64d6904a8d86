import Playthrough.Performer

/-!
# Turns

What a performer can do at a mark, told once: `Turn road p q` has one case for each
way to go on from `p` to `q`, with everything that decides for it and everything it
changes. `turn_of_step` is the inversion of `Performer.step`; invariants and measures
of performances are proved case by case along `Turn`, without opening the reactions
again.

In front of that stand the facts about the questions that reactions ask about the
roadmap: which marks are passed over, and where the next ending boundary is.
-/

namespace Playthrough

namespace Roadmap

variable {road : Roadmap} {i j k : Nat} {kind : MarkKind}

/-! ## Kinds of marks -/

/-- The kind of the mark at an index. -/
def kindAt? (road : Roadmap) (i : Nat) : Option MarkKind := road[i]?.map PlacedMark.kind

theorem kindAt?_of_mark {m : PlacedMark} (h : road[i]? = some m) :
    road.kindAt? i = some m.kind := by
  simp [kindAt?, h]

theorem lt_length_of_kindAt? (h : road.kindAt? i = some kind) : i < road.length := by
  obtain ⟨m, hm, -⟩ := Option.map_eq_some_iff.mp h
  exact (List.getElem?_eq_some_iff.mp hm).1

theorem exists_mark_of_kindAt? (h : road.kindAt? i = some kind) :
    ∃ m, road[i]? = some m ∧ m.kind = kind := Option.map_eq_some_iff.mp h

/-! ## Landmarks -/

theorem lt_length_of_firstSegno? {label : Option String} {target : Nat}
    (h : road.firstSegno? label = some target) : target < road.length := by
  obtain ⟨hlt, -⟩ := List.findIdx?_eq_some_iff_getElem.mp h
  exact hlt

theorem lt_length_of_firstCoda? {label : Option String} {target : Nat}
    (h : road.firstCoda? label = some target) : target < road.length := by
  obtain ⟨hlt, -⟩ := List.findIdx?_eq_some_iff_getElem.mp h
  exact hlt

/-- The first segno with a label is a segno with this label. -/
theorem kindAt?_of_firstSegno? {label : Option String} (h : road.firstSegno? label = some i) :
    road.kindAt? i = some (.segno label) := by
  obtain ⟨hlt, hkind, -⟩ := List.findIdx?_eq_some_iff_getElem.mp h
  rw [kindAt?_of_mark (List.getElem?_eq_getElem hlt), of_decide_eq_true hkind]

/-- The first coda with a label is a coda with this label. -/
theorem kindAt?_of_firstCoda? {label : Option String} (h : road.firstCoda? label = some i) :
    road.kindAt? i = some (.coda label) := by
  obtain ⟨hlt, hkind, -⟩ := List.findIdx?_eq_some_iff_getElem.mp h
  rw [kindAt?_of_mark (List.getElem?_eq_getElem hlt), of_decide_eq_true hkind]

/-! ## Marks that are passed over -/

/-- The marks that are passed over the first time through, on the given pass: the
brackets of this pass, the landmarks, and what waits for a D.C. or D.S. or leads
nowhere. -/
def passedOver (road : Roadmap) (pass : Nat) : MarkKind → Bool
  | .volta numbers => decide (pass ∈ numbers)
  | .segno _ | .coda _ | .toCoda _ | .fine => true
  | .dalSegno label => (road.firstSegno? label).isNone
  | .repeatForward | .repeatBackward _ | .finalVoltaEnd | .daCapo => false

/-- The marks that are passed over in a replay: repeats, endings and landmarks, and
what leads nowhere. -/
def replayedOver (road : Roadmap) : MarkKind → Bool
  | .repeatForward | .repeatBackward _ | .volta _ | .finalVoltaEnd => true
  | .segno _ | .coda _ => true
  | .toCoda label => (road.firstCoda? label).isNone
  | .dalSegno label => (road.firstSegno? label).isNone
  | .daCapo | .fine => false

/-! ## Ending boundaries -/

/-- The next boundary is the first one behind the cursor, and within the roadmap. -/
theorem nextEndingBoundary_cases (road : Roadmap) (i : Nat) :
    (∃ kind, i < road.nextEndingBoundary i ∧
        road.kindAt? (road.nextEndingBoundary i) = some kind ∧ kind.isEndingBoundary) ∨
      road.nextEndingBoundary i = road.length := by
  unfold nextEndingBoundary
  split
  · rename_i offset hfind
    refine .inl ?_
    obtain ⟨hlt, hb, -⟩ := List.findIdx?_eq_some_iff_getElem.mp hfind
    rw [List.getElem_drop] at hb
    rw [List.length_drop] at hlt
    refine ⟨_, by omega, ?_, hb⟩
    exact kindAt?_of_mark (List.getElem?_eq_getElem (by omega))
  · exact .inr rfl

theorem lt_nextEndingBoundary (h : i < road.length) : i < road.nextEndingBoundary i := by
  rcases road.nextEndingBoundary_cases i with ⟨-, hlt, -⟩ | heq
  · exact hlt
  · omega

theorem nextEndingBoundary_le (road : Roadmap) (i : Nat) :
    road.nextEndingBoundary i ≤ road.length := by
  rcases road.nextEndingBoundary_cases i with ⟨_, -, hkind, -⟩ | heq
  · exact Nat.le_of_lt (lt_length_of_kindAt? hkind)
  · exact Nat.le_of_eq heq

/-- A skipped ending has no boundary inside. -/
theorem isEndingBoundary_of_lt_nextEndingBoundary (hij : i < j)
    (hj : j < road.nextEndingBoundary i) (hkind : road.kindAt? j = some kind) :
    kind.isEndingBoundary = false := by
  obtain ⟨m, hm, rfl⟩ := exists_mark_of_kindAt? hkind
  obtain ⟨hlt, hget⟩ := List.getElem?_eq_some_iff.mp hm
  have hdrop : (road.drop (i + 1))[j - (i + 1)]? = some m := by
    rw [List.getElem?_drop, ← hm]
    congr 1
    omega
  unfold nextEndingBoundary at hj
  split at hj
  · rename_i offset hfind
    obtain ⟨_, _, hnot⟩ := List.findIdx?_eq_some_iff_getElem.mp hfind
    have hno := hnot (j - (i + 1)) (by omega)
    rw [(List.getElem?_eq_some_iff.mp hdrop).2] at hno
    exact Bool.eq_false_iff.mpr hno
  · rename_i hfind
    exact List.findIdx?_eq_none_iff.mp hfind m (List.mem_of_getElem? hdrop)

end Roadmap

namespace Performer

variable {road : Roadmap} {p q : Performer} {kind : MarkKind} {m : PlacedMark}

theorem step_of_firstTime (hm : road[p.cursor]? = some m) (hmode : p.mode = .firstTime) :
    p.step road = p.stepFirstTime road m.kind := by
  simp only [step, hm, hmode]

theorem step_of_replaying (hm : road[p.cursor]? = some m) (hmode : p.mode = .replaying) :
    p.step road = p.stepReplaying road m.kind := by
  simp only [step, hm, hmode]

/-! ## The ways to go on -/

/-- The ways in which a performer goes on from a mark. -/
inductive Turn (road : Roadmap) (p : Performer) : Performer → Prop where
  /-- A `||:` is remembered. -/
  | opening (hmode : p.mode = .firstTime) (hkind : road.kindAt? p.cursor = some .repeatForward) :
      Turn road p { p with repeatStart := some p.cursor }.advance
  /-- A `:||` goes back. -/
  | goBack {times target left : Nat} (hmode : p.mode = .firstTime)
      (hkind : road.kindAt? p.cursor = some (.repeatBackward times))
      (hstart : p.repeatStart = some target) (hleft : p.repeatsLeft.getD times = left + 1) :
      Turn road p ({ p with repeatsLeft := some left }.jumpTo road target)
  /-- A `:||` is left behind. -/
  | closing {times : Nat} (hmode : p.mode = .firstTime)
      (hkind : road.kindAt? p.cursor = some (.repeatBackward times))
      (hdone : p.repeatStart = none ∨ p.repeatsLeft.getD times = 0) :
      Turn road p { p with repeatStart := none, repeatsLeft := none }.advance
  /-- A mark without effect is passed over, and an ending is entered. -/
  | passOver {kind : MarkKind} (hmode : p.mode = .firstTime)
      (hkind : road.kindAt? p.cursor = some kind) (hover : road.passedOver p.pass kind = true) :
      Turn road p p.advance
  /-- An ending of other passes is skipped. -/
  | skip {numbers : List Nat} (hmode : p.mode = .firstTime)
      (hkind : road.kindAt? p.cursor = some (.volta numbers)) (hpass : p.pass ∉ numbers) :
      Turn road p (p.jumpTo road (road.nextEndingBoundary p.cursor))
  /-- The close of the endings starts another pass. -/
  | nextPass {target : Nat} (hmode : p.mode = .firstTime)
      (hkind : road.kindAt? p.cursor = some .finalVoltaEnd)
      (hstart : p.repeatStart = some target) (hpass : p.pass < road.highestEnding target p.cursor) :
      Turn road p ({ p with pass := p.pass + 1 }.jumpTo road target)
  /-- The close of the endings is left behind. -/
  | lastPass (hmode : p.mode = .firstTime)
      (hkind : road.kindAt? p.cursor = some .finalVoltaEnd)
      (hdone : ∀ target, p.repeatStart = some target →
        road.highestEnding target p.cursor ≤ p.pass) :
      Turn road p { p with pass := 1, repeatStart := none }.advance
  /-- A D.C. is followed. -/
  | daCapo (hkind : road.kindAt? p.cursor = some .daCapo) (hnew : p.cursor ∉ p.followed) :
      Turn road p p.follow.restart
  /-- A D.S. is followed. -/
  | dalSegno {label : Option String} {target : Nat}
      (hkind : road.kindAt? p.cursor = some (.dalSegno label)) (hnew : p.cursor ∉ p.followed)
      (htarget : road.firstSegno? label = some target) :
      Turn road p (p.follow.jumpTo road target)
  /-- A D.C. or D.S. that was followed before is passed over. -/
  | passCommand (hold : p.cursor ∈ p.followed) : Turn road p p.advance
  /-- A mark without effect in a replay is passed over. -/
  | replayOver {kind : MarkKind} (hmode : p.mode = .replaying)
      (hkind : road.kindAt? p.cursor = some kind) (hover : road.replayedOver kind = true) :
      Turn road p p.advance
  /-- A To Coda goes to its coda. -/
  | toCoda {label : Option String} {target : Nat} (hmode : p.mode = .replaying)
      (hkind : road.kindAt? p.cursor = some (.toCoda label))
      (htarget : road.firstCoda? label = some target) :
      Turn road p (p.jumpTo road target)

theorem turn_atDaCapo (hkind : road.kindAt? p.cursor = some .daCapo) :
    Turn road p p.atDaCapo.performer := by
  unfold atDaCapo
  split
  · rename_i hold
    exact .passCommand hold
  · rename_i hnew
    exact .daCapo hkind hnew

/-- A D.S. is followed or passed over; the last hypothesis says how it is passed over
if there is no segno. -/
theorem turn_atDalSegno {label : Option String}
    (hkind : road.kindAt? p.cursor = some (.dalSegno label))
    (hover : road.firstSegno? label = none → Turn road p p.advance) :
    Turn road p (p.atDalSegno road label).performer := by
  unfold atDalSegno
  split
  · rename_i hold
    exact .passCommand hold
  · rename_i hnew
    split
    · rename_i target htarget
      exact .dalSegno hkind hnew htarget
    · rename_i hnone
      exact hover hnone

theorem turn_atRepeatBackward {times : Nat} (hmode : p.mode = .firstTime)
    (hkind : road.kindAt? p.cursor = some (.repeatBackward times)) :
    Turn road p (p.atRepeatBackward road times) := by
  unfold atRepeatBackward
  split
  · rename_i target left hstart hleft
    exact .goBack hmode hkind hstart hleft
  · rename_i hnot
    refine .closing hmode hkind ?_
    -- falling through means that one of the two numbers of the other branch is missing
    cases hstart : p.repeatStart with
    | none => exact .inl rfl
    | some target =>
      cases hleft : p.repeatsLeft.getD times with
      | zero => exact .inr rfl
      | succ left => exact absurd hleft (hnot target left hstart)

theorem turn_atFinalVoltaEnd (hmode : p.mode = .firstTime)
    (hkind : road.kindAt? p.cursor = some .finalVoltaEnd) :
    Turn road p (p.atFinalVoltaEnd road) := by
  unfold atFinalVoltaEnd
  dsimp only
  split
  · rename_i target hstart
    rw [hstart, Option.getD_some, ← hstart]
    split
    · rename_i hpass
      exact .nextPass hmode hkind hstart hpass
    · rename_i hpass
      refine .lastPass hmode hkind fun target' h => ?_
      obtain rfl : target = target' := Option.some.inj (hstart.symm.trans h)
      exact Nat.le_of_not_lt hpass
  · rename_i hstart
    have hturn : Turn road p { p with pass := 1, repeatStart := none }.advance :=
      .lastPass hmode hkind fun target h => nomatch hstart.symm.trans h
    rw [← hstart] at hturn
    exact hturn

theorem turn_stepFirstTime (hmode : p.mode = .firstTime)
    (hkind : road.kindAt? p.cursor = some kind) :
    Turn road p (p.stepFirstTime road kind).performer := by
  cases kind with
  | repeatForward => exact .opening hmode hkind
  | repeatBackward times => exact turn_atRepeatBackward hmode hkind
  | volta numbers =>
    show Turn road p (p.atVolta road numbers)
    unfold atVolta
    split
    · rename_i hpass
      exact .passOver hmode hkind (by simpa [Roadmap.passedOver] using hpass)
    · rename_i hpass
      exact .skip hmode hkind hpass
  | finalVoltaEnd => exact turn_atFinalVoltaEnd hmode hkind
  | daCapo => exact turn_atDaCapo hkind
  | dalSegno label =>
    refine turn_atDalSegno hkind fun hnone => ?_
    exact .passOver hmode hkind (by simp [Roadmap.passedOver, hnone])
  | segno label => exact .passOver hmode hkind rfl
  | coda label => exact .passOver hmode hkind rfl
  | toCoda label => exact .passOver hmode hkind rfl
  | fine => exact .passOver hmode hkind rfl

theorem turn_stepReplaying (hmode : p.mode = .replaying)
    (hkind : road.kindAt? p.cursor = some kind)
    (hflow : (p.stepReplaying road kind).flow = .goOn) :
    Turn road p (p.stepReplaying road kind).performer := by
  cases kind with
  | daCapo => exact turn_atDaCapo hkind
  | dalSegno label =>
    refine turn_atDalSegno hkind fun hnone => ?_
    exact .replayOver hmode hkind (by simp [Roadmap.replayedOver, hnone])
  | toCoda label =>
    unfold stepReplaying
    dsimp only
    split
    · rename_i target htarget
      exact .toCoda hmode hkind htarget
    · rename_i hnone
      exact .replayOver hmode hkind (by simp [Roadmap.replayedOver, hnone])
  | fine => exact nomatch hflow
  | repeatForward => exact .replayOver hmode hkind rfl
  | repeatBackward times => exact .replayOver hmode hkind rfl
  | volta numbers => exact .replayOver hmode hkind rfl
  | finalVoltaEnd => exact .replayOver hmode hkind rfl
  | segno label => exact .replayOver hmode hkind rfl
  | coda label => exact .replayOver hmode hkind rfl

/-- **What a step can do**: a performer that goes on takes one of the turns. -/
theorem turn_of_step (h : (p.step road).flow = .goOn) : Turn road p (p.step road).performer := by
  cases hm : road[p.cursor]? with
  | none => simp [step, hm] at h
  | some m =>
    have hkind := Roadmap.kindAt?_of_mark hm
    cases hmode : p.mode with
    | firstTime =>
      rw [step_of_firstTime hm hmode]
      exact turn_stepFirstTime hmode hkind
    | replaying =>
      rw [step_of_replaying hm hmode] at h ⊢
      exact turn_stepReplaying hmode hkind h

/-! ## The end of the piece -/

theorem atDaCapo_flow (p : Performer) : p.atDaCapo.flow = .goOn := by
  unfold atDaCapo
  split <;> rfl

theorem atDalSegno_flow (road : Roadmap) (label : Option String) (p : Performer) :
    (p.atDalSegno road label).flow = .goOn := by
  unfold atDalSegno
  split
  · rfl
  · split <;> rfl

/-- At a mark, only a Fine in a replay ends the piece. -/
theorem fine_of_flow_eq_stop (hm : road[p.cursor]? = some m) (h : (p.step road).flow = .stop) :
    p.mode = .replaying ∧ m.kind = .fine := by
  have hcapo : p.atDaCapo.flow ≠ .stop := by simp [atDaCapo_flow]
  have hsegno : ∀ label, (p.atDalSegno road label).flow ≠ .stop := by simp [atDalSegno_flow]
  cases hmode : p.mode with
  | firstTime =>
    rw [step_of_firstTime hm hmode] at h
    cases hkind : m.kind with
    | daCapo => exact absurd (by simpa [stepFirstTime, hkind] using h) hcapo
    | dalSegno label => exact absurd (by simpa [stepFirstTime, hkind] using h) (hsegno label)
    | _ => simp [stepFirstTime, hkind] at h
  | replaying =>
    rw [step_of_replaying hm hmode] at h
    cases hkind : m.kind with
    | daCapo => exact absurd (by simpa [stepReplaying, hkind] using h) hcapo
    | dalSegno label => exact absurd (by simpa [stepReplaying, hkind] using h) (hsegno label)
    | toCoda label =>
      simp only [stepReplaying, hkind] at h
      split at h <;> cases h
    | fine => exact ⟨rfl, rfl⟩
    | _ => simp [stepReplaying, hkind] at h

end Performer

end Playthrough
