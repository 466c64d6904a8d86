import Playthrough.Proofs.Commands

/-!
# Numbers of limited size

A performer counts with natural numbers, which have no end. Here its numbers have a size: indices
have 64 bits, counts of repeats and passes have 32. `Performer.step?` is the reaction to a mark in
which every count is checked and every mark is looked up at its index, so that it fails as soon as
a number would drop below zero or grow beyond what it may be, or a mark would be read that is not
on the roadmap.

- `Performer.step?_eq`: from no state at all does a step fail;
- `Performer.Fits.step`: a step leaves the performer with numbers of the right size;
- `Performer.steps_stay_in_range`: any number of steps, from any state whose numbers have the right
  size, whether a performance comes to it or not.
-/

namespace Playthrough

/-- The largest count. -/
def maxCount : Nat := 0xffffffff

/-- The largest index. -/
def maxIndex : Nat := 0xffffffffffffffff

/-- Counts down, unless there is nothing left. -/
def countDown? (n : Nat) : Option Nat := if 0 < n then some (n - 1) else none

/-- Counts up, unless the limit is reached. -/
def countUp? (limit n : Nat) : Option Nat := if n < limit then some (n + 1) else none

theorem countDown?_succ (n : Nat) : countDown? (n + 1) = some n := if_pos (Nat.succ_pos n)

theorem countUp?_of_lt {limit n : Nat} (h : n < limit) : countUp? limit n = some (n + 1) := if_pos h

/-- The counts that a mark carries. -/
def MarkKind.counts : MarkKind → List Nat
  | repeatBackward times => [times]
  | volta numbers => numbers
  | _ => []

namespace Roadmap

variable {road : Roadmap} {first last i : Nat}

/-- The numbers of a roadmap have the right size. -/
structure Fits (road : Roadmap) : Prop where
  length : road.length ≤ maxIndex
  segment : ∀ m ∈ road, m.segment ≤ maxIndex
  counts : ∀ m ∈ road, ∀ n ∈ m.kind.counts, n ≤ maxCount

/-! ## Checked questions about the roadmap -/

/-- The marks from index `first` on, `count` in number, none of which may be missing. -/
def marks? (road : Roadmap) (first count : Nat) : Option (List PlacedMark) :=
  (List.range' first count).mapM fun i => road[i]?

/-- `highestEnding`, mark by mark. The last index is clipped to the roadmap. -/
def highestEnding? (road : Roadmap) (first last : Nat) : Option Nat := do
  let marks ← road.marks? first (min last (road.length - 1) + 1 - first)
  return (marks.flatMap fun m => m.kind.endingNumbers).foldl max 1

/-- `nextEndingBoundary`, with a checked index to start from. -/
def nextEndingBoundary? (road : Roadmap) (cursor : Nat) : Option Nat := do
  let first ← countUp? maxIndex cursor
  match (road.drop first).findIdx? fun m => m.kind.isEndingBoundary with
  | some offset => return first + offset
  | none => return road.length

/-- Marks can be read as long as all of them are on the roadmap. -/
theorem marks?_eq (first : Nat) {count : Nat} (h : ∀ i < count, first + i < road.length) :
    road.marks? first count = some ((road.drop first).take count) := by
  unfold marks?
  induction count generalizing first with
  | zero => rfl
  | succ count ih =>
    have hfirst : first < road.length := h 0 (Nat.succ_pos count)
    have hrest := ih (first + 1) fun i hi => by
      rw [Nat.add_assoc, Nat.add_comm 1 i]
      exact h (i + 1) (Nat.succ_lt_succ hi)
    rw [List.range'_succ, List.mapM_cons, List.getElem?_eq_getElem hfirst, hrest,
      List.drop_eq_getElem_cons hfirst]
    rfl

/-- All marks up to a mark are on the roadmap. If `first` is behind it, or not on the roadmap at
all, there is none to read. -/
theorem highestEnding?_eq (h : last < road.length) :
    road.highestEnding? first last = some (road.highestEnding first last) := by
  have hlast : min last (road.length - 1) = last := Nat.min_eq_left (Nat.le_pred_of_lt h)
  have hmarks : road.marks? first (last + 1 - first) = some ((road.drop first).take _) :=
    marks?_eq first fun i hi => by omega
  unfold highestEnding? highestEnding
  rw [hlast, hmarks, List.drop_take]
  rfl

theorem nextEndingBoundary?_eq (h : i < maxIndex) :
    road.nextEndingBoundary? i = some (road.nextEndingBoundary i) := by
  unfold nextEndingBoundary? nextEndingBoundary
  rw [countUp?_of_lt h]
  show (match (road.drop (i + 1)).findIdx? fun m => m.kind.isEndingBoundary with
    | some offset => some (i + 1 + offset)
    | none => some road.length) = _
  cases (road.drop (i + 1)).findIdx? fun m => m.kind.isEndingBoundary <;> rfl

/-- No ending has a number that is too large. -/
theorem Fits.highestEnding_le (h : road.Fits) (first last : Nat) :
    road.highestEnding first last ≤ maxCount := by
  refine foldl_max_le_iff.mpr ⟨by decide, fun n hn => ?_⟩
  obtain ⟨m, hm, hn⟩ := List.mem_flatMap.mp hn
  refine h.counts m (List.mem_of_mem_take (List.mem_of_mem_drop hm)) n ?_
  cases hkind : m.kind with
  | volta numbers => simpa [hkind, MarkKind.endingNumbers, MarkKind.counts] using hn
  | _ => simp [hkind, MarkKind.endingNumbers] at hn

theorem Fits.times_le (h : road.Fits) {times : Nat}
    (hkind : road.kindAt? i = some (.repeatBackward times)) : times ≤ maxCount := by
  obtain ⟨m, hm, hmark⟩ := exists_mark_of_kindAt? hkind
  refine h.counts m (List.mem_of_getElem? hm) times ?_
  rw [hmark]
  exact List.mem_singleton_self times

end Roadmap

namespace Performer

variable {road : Roadmap} {p q : Performer}

/-! ## Checked reactions -/

/-- `advance`, at most to the end of the roadmap. -/
def advance? (road : Roadmap) (p : Performer) : Option Performer := do
  let cursor ← countUp? road.length p.cursor
  return { p with cursor }

/-- `atRepeatBackward`, with a checked count. -/
def atRepeatBackward? (road : Roadmap) (times : Nat) (p : Performer) : Option Performer :=
  let left := p.repeatsLeft.getD times
  match p.repeatStart with
  | some target =>
    if 0 < left then do
      let left ← countDown? left
      return { p with repeatsLeft := some left }.jumpTo road target
    else { p with repeatStart := none, repeatsLeft := none }.advance? road
  | none => { p with repeatStart := none, repeatsLeft := none }.advance? road

/-- `atVolta`, with a checked boundary. -/
def atVolta? (road : Roadmap) (numbers : List Nat) (p : Performer) : Option Performer :=
  if p.pass ∈ numbers then p.advance? road
  else do
    let boundary ← road.nextEndingBoundary? p.cursor
    return p.jumpTo road boundary

/-- `atFinalVoltaEnd`, with a checked pass. -/
def atFinalVoltaEnd? (road : Roadmap) (p : Performer) : Option Performer := do
  let passes ← road.highestEnding? (p.repeatStart.getD 0) p.cursor
  match p.repeatStart with
  | some target =>
    if p.pass < passes then
      let pass ← countUp? maxCount p.pass
      return { p with pass }.jumpTo road target
    else
      advance? road { p with pass := 1, repeatStart := none }
  | none => advance? road { p with pass := 1 }

/-- `atDaCapo`, with a checked cursor. -/
def atDaCapo? (road : Roadmap) (p : Performer) : Option Reaction :=
  if p.cursor ∈ p.followed then return { performer := ← p.advance? road }
  else return { performer := p.follow.restart }

/-- `atDalSegno`, with a checked cursor. -/
def atDalSegno? (road : Roadmap) (label : Option String) (p : Performer) : Option Reaction :=
  if p.cursor ∈ p.followed then return { performer := ← p.advance? road }
  else match road.firstSegno? label with
    | some target => return { performer := p.follow.jumpTo road target }
    | none =>
      return { performer := ← p.advance? road, warning := some (.dalSegnoWithoutSegno label) }

/-- `stepFirstTime`, checked. -/
def stepFirstTime? (road : Roadmap) (kind : MarkKind) (p : Performer) : Option Reaction :=
  match kind with
  | .repeatForward =>
    return { performer := ← { p with repeatStart := some p.cursor }.advance? road }
  | .repeatBackward times => return { performer := ← p.atRepeatBackward? road times }
  | .volta numbers => return { performer := ← p.atVolta? road numbers }
  | .finalVoltaEnd => return { performer := ← p.atFinalVoltaEnd? road }
  | .daCapo => p.atDaCapo? road
  | .dalSegno label => p.atDalSegno? road label
  | .segno _ | .coda _ | .toCoda _ | .fine => return { performer := ← p.advance? road }

/-- `stepReplaying`, checked. -/
def stepReplaying? (road : Roadmap) (kind : MarkKind) (p : Performer) : Option Reaction :=
  match kind with
  | .daCapo => p.atDaCapo? road
  | .dalSegno label => p.atDalSegno? road label
  | .toCoda label =>
    match road.firstCoda? label with
    | some target => return { performer := p.jumpTo road target }
    | none => return { performer := ← p.advance? road, warning := some (.toCodaWithoutCoda label) }
  | .fine => return { performer := p, flow := .stop }
  | .repeatForward | .repeatBackward _ | .volta _ | .finalVoltaEnd | .segno _ | .coda _ =>
    return { performer := ← p.advance? road }

/-- `step`, checked: it fails if a number leaves its range, or a mark is read that is not there. -/
def step? (road : Roadmap) (p : Performer) : Option Reaction :=
  match road[p.cursor]? with
  | none => return { performer := p, flow := .stop }
  | some m =>
    match p.mode with
    | .firstTime => p.stepFirstTime? road m.kind
    | .replaying => p.stepReplaying? road m.kind

/-- `after`, checked: it fails if one of the steps does. -/
def after? (road : Roadmap) : Nat → Performer → Option Performer
  | 0, p => some p
  | n + 1, p => do
    let reaction ← p.step? road
    after? road n reaction.performer

/-! ## No check fails -/

theorem advance?_eq (hin : p.cursor < road.length) : p.advance? road = some p.advance := by
  unfold advance?
  rw [countUp?_of_lt hin]
  rfl

theorem atRepeatBackward?_eq (hin : p.cursor < road.length) (times : Nat) :
    p.atRepeatBackward? road times = some (p.atRepeatBackward road times) := by
  have hclosing := advance?_eq (p := { p with repeatStart := none, repeatsLeft := none }) hin
  unfold atRepeatBackward? atRepeatBackward
  cases p.repeatStart with
  | none => exact hclosing
  | some target =>
    cases hleft : p.repeatsLeft.getD times with
    | zero => exact hclosing
    | succ left =>
      dsimp only
      rw [if_pos (Nat.succ_pos left), countDown?_succ]
      rfl

theorem atVolta?_eq (hroad : road.Fits) (hin : p.cursor < road.length) (numbers : List Nat) :
    p.atVolta? road numbers = some (p.atVolta road numbers) := by
  unfold atVolta? atVolta
  by_cases hpass : p.pass ∈ numbers
  · rw [if_pos hpass, if_pos hpass, advance?_eq hin]
  · rw [if_neg hpass, if_neg hpass,
      Roadmap.nextEndingBoundary?_eq (Nat.lt_of_lt_of_le hin hroad.length)]
    rfl

/-- A pass that is counted up is one of an ending. -/
theorem atFinalVoltaEnd?_eq (hroad : road.Fits) (hin : p.cursor < road.length) :
    p.atFinalVoltaEnd? road = some (p.atFinalVoltaEnd road) := by
  unfold atFinalVoltaEnd? atFinalVoltaEnd
  rw [Roadmap.highestEnding?_eq hin]
  dsimp only [bind, Option.bind]
  cases p.repeatStart with
  | none => exact advance?_eq (p := { p with pass := 1, repeatStart := none }) hin
  | some target =>
    dsimp only [Option.getD_some]
    by_cases hpass : p.pass < road.highestEnding target p.cursor
    · have hlt : p.pass < maxCount :=
        Nat.lt_of_lt_of_le hpass (hroad.highestEnding_le target p.cursor)
      rw [if_pos hpass, if_pos hpass, countUp?_of_lt hlt]
      rfl
    · rw [if_neg hpass, if_neg hpass]
      exact advance?_eq (p := { p with pass := 1, repeatStart := none }) hin

/-- A performer that only goes on is the whole reaction. -/
theorem goOn_of_eq_some {next : Option Performer} (h : next = some q) :
    (do return ({ performer := ← next } : Reaction)) = some { performer := q } := by
  rw [h]
  rfl

theorem atDaCapo?_eq (hin : p.cursor < road.length) : p.atDaCapo? road = some p.atDaCapo := by
  unfold atDaCapo? atDaCapo
  by_cases hold : p.cursor ∈ p.followed
  · rw [if_pos hold, if_pos hold]
    exact goOn_of_eq_some (advance?_eq hin)
  · rw [if_neg hold, if_neg hold]
    rfl

theorem atDalSegno?_eq (hin : p.cursor < road.length) (label : Option String) :
    p.atDalSegno? road label = some (p.atDalSegno road label) := by
  unfold atDalSegno? atDalSegno
  by_cases hold : p.cursor ∈ p.followed
  · rw [if_pos hold, if_pos hold]
    exact goOn_of_eq_some (advance?_eq hin)
  · rw [if_neg hold, if_neg hold, advance?_eq hin]
    cases road.firstSegno? label <;> rfl

theorem stepFirstTime?_eq (hroad : road.Fits) (hin : p.cursor < road.length) (kind : MarkKind) :
    p.stepFirstTime? road kind = some (p.stepFirstTime road kind) := by
  cases kind with
  | repeatForward =>
    exact goOn_of_eq_some (advance?_eq (p := { p with repeatStart := some p.cursor }) hin)
  | repeatBackward times => exact goOn_of_eq_some (atRepeatBackward?_eq hin times)
  | volta numbers => exact goOn_of_eq_some (atVolta?_eq hroad hin numbers)
  | finalVoltaEnd => exact goOn_of_eq_some (atFinalVoltaEnd?_eq hroad hin)
  | daCapo => exact atDaCapo?_eq hin
  | dalSegno label => exact atDalSegno?_eq hin label
  | segno label | coda label | toCoda label | fine => exact goOn_of_eq_some (advance?_eq hin)

theorem stepReplaying?_eq (hin : p.cursor < road.length) (kind : MarkKind) :
    p.stepReplaying? road kind = some (p.stepReplaying road kind) := by
  cases kind with
  | daCapo => exact atDaCapo?_eq hin
  | dalSegno label => exact atDalSegno?_eq hin label
  | toCoda label =>
    unfold stepReplaying? stepReplaying
    dsimp only
    rw [advance?_eq hin]
    cases road.firstCoda? label <;> rfl
  | fine => rfl
  | repeatForward | repeatBackward times | volta numbers | finalVoltaEnd
  | segno label | coda label =>
    exact goOn_of_eq_some (advance?_eq hin)

/-- **No step fails**, whatever the performer has in mind. -/
theorem step?_eq (hroad : road.Fits) (p : Performer) : p.step? road = some (p.step road) := by
  unfold step? step
  cases hm : road[p.cursor]? with
  | none => rfl
  | some m =>
    have hin : p.cursor < road.length := (List.getElem?_eq_some_iff.mp hm).1
    cases hmode : p.mode with
    | firstTime => exact stepFirstTime?_eq hroad hin m.kind
    | replaying => exact stepReplaying?_eq hin m.kind

theorem after?_eq (hroad : road.Fits) (n : Nat) (p : Performer) :
    p.after? road n = some (p.after road n) := by
  induction n generalizing p with
  | zero => rfl
  | succ n ih =>
    show (p.step? road).bind _ = _
    rw [step?_eq hroad]
    exact ih (p.step road).performer

/-! ## What stays in range -/

/-- The numbers of a performer have the right size. -/
structure Fits (p : Performer) : Prop where
  cursor : p.cursor ≤ maxIndex
  repeatStart : ∀ t, p.repeatStart = some t → t ≤ maxIndex
  repeatsLeft : ∀ n, p.repeatsLeft = some n → n ≤ maxCount
  pass : p.pass ≤ maxCount
  shown : ∀ position, p.shown = some position → position.segment ≤ maxIndex
  followed : ∀ i ∈ p.followed, i ≤ maxIndex

/-- A count that is begun is that of a mark. -/
theorem Fits.repeatsLeft_getD_le (h : p.Fits) {times : Nat} (htimes : times ≤ maxCount) :
    p.repeatsLeft.getD times ≤ maxCount := by
  cases hleft : p.repeatsLeft with
  | none => exact htimes
  | some left => exact h.repeatsLeft left hleft

theorem Fits.advance (h : p.Fits) (hroad : road.Fits) (hin : p.cursor < road.length) :
    p.advance.Fits :=
  { h with cursor := Nat.le_trans hin hroad.length }

theorem Fits.jumpTo (h : p.Fits) (hroad : road.Fits) {target : Nat} (htarget : target ≤ maxIndex) :
    (p.jumpTo road target).Fits := by
  refine { h with cursor := htarget, shown := ?_ }
  intro position hshown
  change ((if p.cursor < target then road[target]?.map PlacedMark.position else none).or
    p.shown) = some position at hshown
  rcases Option.or_eq_some_iff.mp hshown with hlanding | ⟨-, hshown⟩
  · obtain ⟨-, hlanding⟩ := Option.ite_none_right_eq_some.mp hlanding
    obtain ⟨m, hm, rfl⟩ := Option.map_eq_some_iff.mp hlanding
    exact hroad.segment m (List.mem_of_getElem? hm)
  · exact h.shown position hshown

theorem Fits.follow (h : p.Fits) : p.follow.Fits :=
  { h with followed := List.forall_mem_cons.mpr ⟨h.cursor, h.followed⟩ }

/-- Every turn keeps the numbers in range. -/
theorem Fits.turn (h : p.Fits) (hroad : road.Fits) (hin : p.cursor < road.length)
    (hturn : Turn road p q) : q.Fits := by
  cases hturn with
  | opening hmode hkind =>
    have hopen : Fits { p with repeatStart := some p.cursor } :=
      { h with repeatStart := fun t ht => Option.some.inj ht ▸ h.cursor }
    exact hopen.advance hroad hin
  | @goBack times target left hmode hkind hstart hleft =>
    have hcount : left ≤ maxCount := by
      refine Nat.le_trans (Nat.le_of_lt ?_) (h.repeatsLeft_getD_le (hroad.times_le hkind))
      rw [hleft]
      exact Nat.lt_succ_self left
    have hback : Fits { p with repeatsLeft := some left } :=
      { h with repeatsLeft := fun n hn => Option.some.inj hn ▸ hcount }
    exact hback.jumpTo hroad (h.repeatStart target hstart)
  | closing hmode hkind hdone =>
    have hclosed : Fits { p with repeatStart := none, repeatsLeft := none } :=
      { h with repeatStart := nofun, repeatsLeft := nofun }
    exact hclosed.advance hroad hin
  | passOver hmode hkind hover => exact h.advance hroad hin
  | skip hmode hkind hpass =>
    exact h.jumpTo hroad (Nat.le_trans (road.nextEndingBoundary_le p.cursor) hroad.length)
  | nextPass hmode hkind hstart hpass =>
    have hnext : Fits { p with pass := p.pass + 1 } :=
      { h with pass := Nat.le_trans hpass (hroad.highestEnding_le _ p.cursor) }
    exact hnext.jumpTo hroad (h.repeatStart _ hstart)
  | lastPass hmode hkind hdone =>
    have hlast : Fits { p with pass := 1, repeatStart := none } :=
      { h with pass := show 1 ≤ maxCount by decide, repeatStart := nofun }
    exact hlast.advance hroad hin
  | daCapo hkind hnew =>
    exact { h.follow with cursor := Nat.zero_le maxIndex, shown := nofun }
  | dalSegno hkind hnew htarget =>
    have htarget' := Nat.le_of_lt (Roadmap.lt_length_of_firstSegno? htarget)
    exact h.follow.jumpTo hroad (Nat.le_trans htarget' hroad.length)
  | passCommand hold => exact h.advance hroad hin
  | replayOver hmode hkind hover => exact h.advance hroad hin
  | toCoda hmode hkind htarget =>
    have htarget' := Nat.le_of_lt (Roadmap.lt_length_of_firstCoda? htarget)
    exact h.jumpTo hroad (Nat.le_trans htarget' hroad.length)

/-- Behind the last mark nothing happens any more. -/
theorem step_of_length_le (h : road.length ≤ p.cursor) :
    p.step road = { performer := p, flow := .stop } := by
  unfold step
  rw [List.getElem?_eq_none h]

theorem after_of_length_le (h : road.length ≤ p.cursor) (n : Nat) : p.after road n = p := by
  refine after_preserves (I := fun q => q = p) ?_ rfl n
  rintro _ rfl
  rw [step_of_length_le h]

/-- **A step leaves the numbers of a performer in range.** -/
theorem Fits.step (h : p.Fits) (hroad : road.Fits) : (p.step road).performer.Fits := by
  by_cases hin : p.cursor < road.length
  · rcases step_eq_self_or_turn road p with hstays | hturn
    · rw [hstays]
      exact h
    · exact h.turn hroad hin hturn
  · rw [step_of_length_le (Nat.le_of_not_lt hin)]
    exact h

/-- From a mark, only a `||:` that is in mind can lead beyond the end of the roadmap. -/
theorem cursor_le_of_step (hin : p.cursor < road.length) :
    (p.step road).performer.cursor ≤ road.length ∨
      p.repeatStart = some (p.step road).performer.cursor := by
  rcases step_eq_self_or_turn road p with hstays | hturn
  · rw [hstays]
    exact .inl (Nat.le_of_lt hin)
  · generalize (p.step road).performer = q at hturn
    cases hturn with
    | goBack hmode hkind hstart hleft => exact .inr hstart
    | nextPass hmode hkind hstart hpass => exact .inr hstart
    | skip hmode hkind hpass => exact .inl (road.nextEndingBoundary_le p.cursor)
    | daCapo hkind hnew => exact .inl (Nat.zero_le _)
    | dalSegno hkind hnew htarget =>
      exact .inl (Nat.le_of_lt (Roadmap.lt_length_of_firstSegno? htarget))
    | toCoda hmode hkind htarget =>
      exact .inl (Nat.le_of_lt (Roadmap.lt_length_of_firstCoda? htarget))
    | _ => exact .inl hin

/-- A performer and the step it takes next have all their numbers in range. -/
structure StaysInRange (road : Roadmap) (p : Performer) : Prop where
  /-- The numbers of the performer have the right size. -/
  fits : p.Fits
  /-- No count and no index leaves its range in the step. -/
  succeeds : p.step? road = some (p.step road)
  /-- The step does not move the cursor beyond the roadmap, unless back to a `||:` there. -/
  within : p.cursor < road.length → (p.step road).performer.cursor ≤ road.length ∨
    p.repeatStart = some (p.step road).performer.cursor
  /-- With the cursor behind the last mark, the piece is over and the performer stays as it is. -/
  outside : road.length ≤ p.cursor →
    p.step road = { performer := p, flow := .stop } ∧ ∀ k, p.after road k = p

/-- **Steps stay in range** from any state and on any roadmap. -/
theorem steps_stay_in_range (hroad : road.Fits) (hp : p.Fits) (n : Nat) :
    p.after? road n = some (p.after road n) ∧ StaysInRange road (p.after road n) := by
  refine ⟨after?_eq hroad n p, ?_⟩
  constructor
  case fits => exact after_preserves (fun hq => hq.step hroad) hp n
  case succeeds => exact step?_eq hroad _
  case within => exact cursor_le_of_step
  case outside => exact fun hout => ⟨step_of_length_le hout, after_of_length_le hout⟩

/-- A roadmap out of order, with the largest counts there are. -/
def largestCounts : Roadmap :=
  [⟨5, .volta [0, maxCount], .one⟩, ⟨0, .finalVoltaEnd, .one⟩, ⟨3, .repeatBackward maxCount, .zero⟩]

/-- At the close of the endings the pass is counted up to the largest one there is. Where the `||:`
in mind is far beyond the roadmap, there is no ending to look at, and the performer leaves the
roadmap for good. -/
theorem steps_stay_in_range_largestCounts :
    let p : Performer := { cursor := 1, repeatStart := some 0, pass := maxCount - 1 }
    let q : Performer := { cursor := 1, repeatStart := some maxIndex, pass := 0 }
    largestCounts.Fits ∧ p.Fits ∧ q.Fits ∧ (p.after largestCounts 1).pass = maxCount ∧
      (q.after largestCounts 1).cursor = maxIndex ∧
      ∀ n, StaysInRange largestCounts (p.after largestCounts n) ∧
        q.after? largestCounts (n + 1) = some (q.after largestCounts 1) := by
  intro p q
  have hroad : largestCounts.Fits := ⟨by decide, by decide, by decide⟩
  have hp : p.Fits := ⟨by decide, by simp [p, maxIndex], nofun, by decide, nofun, nofun⟩
  have hq : q.Fits := ⟨by decide, by simp [q], nofun, by decide, nofun, nofun⟩
  refine ⟨hroad, hp, hq, by decide, by decide, fun n => ⟨(steps_stay_in_range hroad hp n).2, ?_⟩⟩
  obtain ⟨-, hleaves⟩ := steps_stay_in_range hroad hq 1
  rw [(steps_stay_in_range hroad hq (n + 1)).1, Nat.add_comm n 1, after_add,
    (hleaves.outside (by decide)).2 n]

end Performer

end Playthrough
