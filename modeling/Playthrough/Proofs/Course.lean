import Mathlib.Data.List.Induction
import Playthrough.Performance
import Playthrough.Proofs.Turns

/-!
# Courses

A performance takes one round for each arrival at a mark: the music up to the mark
is played, and the performer reacts. Leaving the budget aside, what a performer does
is therefore a chain of rounds:

- `Performer.next?` is one round;
- `Course road p l q`: from `p` the performance comes to `q`, and `l` are the
  performers upon the arrivals on the way;
- `Reached road p`: a performance of this roadmap comes to `p`.

`Course.run` and `run_endsAs` are the two directions between courses and the
performances that are cut off by a budget: a course is how a performance begins, and
a performance is a course with an end.
-/

namespace Playthrough

namespace Performer

variable {road : Roadmap} {p q r : Performer} {l l' : List Performer} {m : PlacedMark}

/-! ## Rounds -/

/-- The performer after one round, upon the next arrival or behind the last mark.
There is none if no mark is left or the piece ends at this one. -/
def next? (road : Roadmap) (p : Performer) : Option Performer :=
  match road[p.cursor]? with
  | none => none
  | some m =>
    match ((p.playTo m.position).step road).flow with
    | .goOn => some ((p.playTo m.position).step road).performer
    | .stop => none

/-- Where there is no round, the reaction to the mark ends the piece. -/
theorem flow_of_next?_eq_none (hm : road[p.cursor]? = some m) (h : p.next? road = none) :
    ((p.playTo m.position).step road).flow = .stop := by
  cases hflow : ((p.playTo m.position).step road).flow with
  | goOn => simp [next?, hm, hflow] at h
  | stop => rfl

/-- A round that goes on is a reaction behind the music up to a mark. -/
theorem next?_eq_some_iff :
    p.next? road = some q ↔ ∃ m, road[p.cursor]? = some m ∧
      ((p.playTo m.position).step road).flow = .goOn ∧
      ((p.playTo m.position).step road).performer = q := by
  unfold next?
  cases hm : road[p.cursor]? with
  | none => simp
  | some m => cases hflow : ((p.playTo m.position).step road).flow <;> simp [hflow]

/-- There is a mark wherever a round begins. -/
theorem exists_mark_of_next? (h : p.next? road = some q) : ∃ m, road[p.cursor]? = some m := by
  obtain ⟨m, hm, -, -⟩ := next?_eq_some_iff.mp h
  exact ⟨m, hm⟩

theorem cursor_lt_of_next? (h : p.next? road = some q) : p.cursor < road.length := by
  obtain ⟨m, hm⟩ := exists_mark_of_next? h
  exact (List.getElem?_eq_some_iff.mp hm).1

/-! ## Rounds the first time through

What a round comes to at each kind of mark, as long as no command is followed. -/

section FirstTime

variable {times target left : Nat} {numbers : List Nat}

theorem next?_of_firstTime (hm : road[p.cursor]? = some m) (hmode : p.mode = .firstTime) :
    p.next? road = some ((p.playTo m.position).stepFirstTime road m.kind).performer := by
  have hstep : (p.playTo m.position).step road =
      (p.playTo m.position).stepFirstTime road m.kind :=
    step_of_firstTime (p := p.playTo m.position) hm hmode
  have hflow : ((p.playTo m.position).step road).flow = .goOn := by
    cases hflow : ((p.playTo m.position).step road).flow with
    | goOn => rfl
    | stop =>
      obtain ⟨hstop, -⟩ := fine_of_flow_eq_stop (p := p.playTo m.position) hm hflow
      rw [show (p.playTo m.position).mode = .firstTime from hmode] at hstop
      cases hstop
  exact next?_eq_some_iff.mpr ⟨m, hm, hflow, by rw [hstep]⟩

theorem next?_opening (hm : road[p.cursor]? = some m) (hmode : p.mode = .firstTime)
    (hkind : m.kind = .repeatForward) :
    p.next? road = some
      { p with shown := some m.position, repeatStart := some p.cursor,
               cursor := p.cursor + 1 } := by
  rw [next?_of_firstTime hm hmode, hkind]
  rfl

theorem next?_goBack (hm : road[p.cursor]? = some m) (hmode : p.mode = .firstTime)
    (hkind : m.kind = .repeatBackward times) (hstart : p.repeatStart = some target)
    (hleft : p.repeatsLeft.getD times = left + 1) (hback : target ≤ p.cursor) :
    p.next? road = some
      { p with shown := some m.position, repeatsLeft := some left, cursor := target } := by
  rw [next?_of_firstTime hm hmode, hkind]
  simp [stepFirstTime, atRepeatBackward, playTo, hstart, hleft, jumpTo, Nat.not_lt.mpr hback]

theorem next?_closing (hm : road[p.cursor]? = some m) (hmode : p.mode = .firstTime)
    (hkind : m.kind = .repeatBackward times) (hleft : p.repeatsLeft.getD times = 0) :
    p.next? road = some
      { p with shown := some m.position, repeatStart := none, repeatsLeft := none,
               cursor := p.cursor + 1 } := by
  rw [next?_of_firstTime hm hmode, hkind]
  simp [stepFirstTime, atRepeatBackward, playTo, hleft, advance]

theorem next?_passOver (hm : road[p.cursor]? = some m) (hmode : p.mode = .firstTime)
    (hover : road.passedOver p.pass m.kind = true) :
    p.next? road = some (p.playTo m.position).advance := by
  rw [next?_of_firstTime hm hmode]
  cases hkind : m.kind with
  | volta numbers =>
    have hpass : p.pass ∈ numbers := of_decide_eq_true (by rw [hkind] at hover; exact hover)
    simp [stepFirstTime, atVolta, playTo, hpass]
  | dalSegno label =>
    have hnone : road.firstSegno? label = none := by
      rw [hkind] at hover
      exact Option.isNone_iff_eq_none.mp hover
    simp only [stepFirstTime, atDalSegno, hnone]
    split <;> rfl
  | repeatForward | repeatBackward times | finalVoltaEnd | daCapo =>
    simp [hkind, Roadmap.passedOver] at hover
  | _ => rfl

theorem next?_skip (hm : road[p.cursor]? = some m) (hmode : p.mode = .firstTime)
    (hkind : m.kind = .volta numbers) (hpass : p.pass ∉ numbers) :
    p.next? road = some
      ((p.playTo m.position).jumpTo road (road.nextEndingBoundary p.cursor)) := by
  rw [next?_of_firstTime hm hmode, hkind]
  simp [stepFirstTime, atVolta, playTo, hpass]

theorem next?_nextPass (hm : road[p.cursor]? = some m) (hmode : p.mode = .firstTime)
    (hkind : m.kind = .finalVoltaEnd) (hstart : p.repeatStart = some target)
    (hpass : p.pass < road.highestEnding target p.cursor) (hback : target ≤ p.cursor) :
    p.next? road = some
      { p with shown := some m.position, pass := p.pass + 1, cursor := target } := by
  rw [next?_of_firstTime hm hmode, hkind]
  simp [stepFirstTime, atFinalVoltaEnd, playTo, hstart, hpass, jumpTo, Nat.not_lt.mpr hback]

theorem next?_lastPass (hm : road[p.cursor]? = some m) (hmode : p.mode = .firstTime)
    (hkind : m.kind = .finalVoltaEnd) (hstart : p.repeatStart = some target)
    (hpass : road.highestEnding target p.cursor ≤ p.pass) :
    p.next? road = some
      { p with shown := some m.position, pass := 1, repeatStart := none,
               cursor := p.cursor + 1 } := by
  rw [next?_of_firstTime hm hmode, hkind]
  simp [stepFirstTime, atFinalVoltaEnd, playTo, hstart, Nat.not_lt.mpr hpass, advance]

end FirstTime

/-! ## Chains of rounds -/

/-- From one performer a performance comes to another one, by the given arrivals (the
first performer included, the last one not). -/
inductive Course (road : Roadmap) : Performer → List Performer → Performer → Prop where
  | refl (p : Performer) : Course road p [] p
  | round {p q r : Performer} {l : List Performer} (hnext : p.next? road = some q)
      (hrest : Course road q l r) : Course road p (p :: l) r

namespace Course

theorem append (h : Course road p l q) (h' : Course road q l' r) :
    Course road p (l ++ l') r := by
  induction h with
  | refl => exact h'
  | round hnext _ ih => exact .round hnext (ih h')

theorem single (h : p.next? road = some q) : Course road p [p] q := .round h (.refl q)

/-- One more round at the end. -/
theorem snoc (h : Course road p l q) (hnext : q.next? road = some r) :
    Course road p (l ++ [q]) r := h.append (single hnext)

/-- A course begins with the performer it starts from. -/
theorem exists_cons (h : Course road p l q) : ∃ rest, l ++ [q] = p :: rest := by
  cases h with
  | refl => exact ⟨[], rfl⟩
  | round _ _ => exact ⟨_, rfl⟩

/-- The last round of a course. -/
theorem of_snoc {a : Performer} (h : Course road p (l ++ [a]) q) :
    Course road p l a ∧ a.next? road = some q := by
  induction l generalizing p with
  | nil =>
    cases h with
    | round hnext hrest =>
      cases hrest
      exact ⟨.refl _, hnext⟩
  | cons b l ih =>
    cases h with
    | round hnext hrest =>
      obtain ⟨hl, ha⟩ := ih hrest
      exact ⟨.round hnext hl, ha⟩

/-- A course can be cut in front of any of its arrivals. -/
theorem split {a : Performer} {l₁ l₂ : List Performer} (h : Course road p (l₁ ++ a :: l₂) q) :
    Course road p l₁ a ∧ Course road a (a :: l₂) q := by
  induction l₁ generalizing p with
  | nil =>
    cases h with
    | round hnext hrest => exact ⟨.refl _, .round hnext hrest⟩
  | cons b l₁ ih =>
    cases h with
    | round hnext hrest =>
      obtain ⟨hl, ha⟩ := ih hrest
      exact ⟨.round hnext hl, ha⟩

/-- Induction along a course, round by round from its beginning. -/
theorem induction_snoc {P : List Performer → Performer → Prop} (hinit : P [] p)
    (hstep : ∀ {l q r}, Course road p l q → P l q → q.next? road = some r → P (l ++ [q]) r)
    (h : Course road p l q) : P l q := by
  induction l using List.reverseRecOn generalizing q with
  | nil =>
    cases h
    exact hinit
  | append_singleton l a ih =>
    obtain ⟨hl, hnext⟩ := h.of_snoc
    exact hstep hl (ih hl) hnext

/-- Consecutive performers of a course are one round apart. -/
theorem next?_of_append_eq {a b : Performer} {l₁ l₂ : List Performer} (h : Course road p l q)
    (heq : l ++ [q] = l₁ ++ a :: b :: l₂) : a.next? road = some b := by
  induction h generalizing l₁ with
  | refl => cases l₁ <;> simp at heq
  | round hnext hrest ih =>
    cases l₁ with
    | nil =>
      obtain ⟨rest, hrest⟩ := hrest.exists_cons
      rw [List.cons_append, hrest] at heq
      obtain ⟨rfl, rfl, -⟩ : _ = a ∧ _ = b ∧ rest = l₂ := by simpa using heq
      exact hnext
    | cons c l₁ =>
      rw [List.cons_append, List.cons_append] at heq
      exact ih (List.cons.inj heq).2

/-- What a round preserves, a course preserves. -/
theorem preserves {I : Performer → Prop} (hstep : ∀ {p q}, I p → p.next? road = some q → I q)
    (h : Course road p l q) (hp : I p) : I q := by
  induction h with
  | refl => exact hp
  | round hnext _ ih => exact ih (hstep hp hnext)

/-- What a round preserves holds upon all arrivals. -/
theorem all {I : Performer → Prop} (hstep : ∀ {p q}, I p → p.next? road = some q → I q)
    (h : Course road p l q) (hp : I p) : ∀ a ∈ l, I a := by
  induction h with
  | refl p => exact fun a ha => nomatch ha
  | round hnext _ ih =>
    intro a ha
    rcases List.mem_cons.mp ha with rfl | ha
    · exact hp
    · exact ih (hstep hp hnext) a ha

/-- All arrivals of a course are at marks. -/
theorem cursor_lt (h : Course road p l q) : ∀ a ∈ l, a.cursor < road.length := by
  induction h with
  | refl => exact fun a ha => nomatch ha
  | round hnext _ ih =>
    intro a ha
    rcases List.mem_cons.mp ha with rfl | ha
    · exact cursor_lt_of_next? hnext
    · exact ih a ha

end Course

/-- A performance of this roadmap comes to the performer. -/
def Reached (road : Roadmap) (p : Performer) : Prop := ∃ l, Course road {} l p

/-- **Invariants of performances**: what holds at the beginning and is preserved by every
round holds of every performer that is reached. -/
theorem Reached.invariant {I : Performer → Prop} (hinit : I {})
    (hstep : ∀ {p q}, I p → p.next? road = some q → I q) (h : Reached road p) : I p := by
  obtain ⟨l, h⟩ := h
  exact h.preserves hstep hinit

/-- One round further on. -/
theorem Reached.next (h : Reached road p) (hnext : p.next? road = some q) : Reached road q := by
  obtain ⟨l, h⟩ := h
  exact ⟨_, h.snoc hnext⟩

/-- All arrivals of a performance are reached. -/
theorem Course.reached (h : Course road {} l q) : ∀ a ∈ l, Reached road a :=
  h.all (fun hp hnext => hp.next hnext) ⟨[], .refl _⟩

/-! ## Performances with a budget -/

/-- What has happened so far is only put in front of what is to come. -/
theorem runFrom_eq (road : Roadmap) (budget : Nat) (p : Performer) (arrivals : List Performer)
    (warnings : List Warning) :
    p.runFrom road budget arrivals warnings =
      { p.run road budget with
        arrivals := arrivals.reverse ++ (p.run road budget).arrivals
        warnings := warnings.reverse ++ (p.run road budget).warnings } := by
  induction budget generalizing p arrivals warnings with
  | zero =>
    unfold run runFrom
    cases road[p.cursor]? <;> simp
  | succ budget ih =>
    unfold run runFrom
    cases road[p.cursor]? with
    | none => simp
    | some m =>
      dsimp only
      cases ((p.playTo m.position).step road).flow with
      | goOn =>
        dsimp only
        rw [ih, ih _ [p]]
        simp
      | stop => simp

/-- Behind the last mark there is nothing to do. -/
theorem run_of_none (h : road[p.cursor]? = none) (budget : Nat) :
    p.run road budget = { arrivals := [], warnings := [], ending := .ranOff, last := p } := by
  unfold run runFrom
  cases budget <;> simp [h]

/-- Without a budget the performance is broken off at the first mark. -/
theorem run_zero (h : road[p.cursor]? = some m) :
    p.run road 0 =
      { arrivals := [], warnings := [.unsettled], ending := .unsettled, last := p } := by
  unfold run runFrom
  simp [h]

/-- No reaction to a mark claims that the budget is spent. -/
theorem step_warning_ne_unsettled (road : Roadmap) (p : Performer) :
    (p.step road).warning ≠ some .unsettled := by
  have hcapo : p.atDaCapo.warning ≠ some .unsettled := by
    unfold atDaCapo
    split <;> simp
  have hsegno : ∀ label, (p.atDalSegno road label).warning ≠ some .unsettled := by
    intro label
    unfold atDalSegno
    repeat' split
    all_goals simp
  unfold step
  split
  · simp
  · rename_i m _
    split
    · cases m.kind with
      | daCapo => exact hcapo
      | dalSegno label => exact hsegno label
      | _ => simp [stepFirstTime]
    · cases m.kind with
      | daCapo => exact hcapo
      | dalSegno label => exact hsegno label
      | toCoda label =>
        unfold stepReplaying
        dsimp only
        split <;> simp
      | _ => simp [stepReplaying]

/-- A round is the beginning of a performance, with any budget that is left for it. -/
theorem run_of_next? (h : p.next? road = some q) :
    ∃ warnings, Warning.unsettled ∉ warnings ∧
      ∀ budget, p.run road (budget + 1) =
        { q.run road budget with
          arrivals := p :: (q.run road budget).arrivals
          warnings := warnings ++ (q.run road budget).warnings } := by
  obtain ⟨m, hm, hflow, hq⟩ := next?_eq_some_iff.mp h
  refine ⟨((p.playTo m.position).step road).warning.toList.reverse, ?_, ?_⟩
  · rw [List.mem_reverse, Option.mem_toList]
    exact step_warning_ne_unsettled road _
  · intro budget
    show p.runFrom road (budget + 1) [] [] = _
    unfold runFrom
    simp only [hm, hflow]
    rw [runFrom_eq, hq]
    simp

/-- A mark at which there is no further round ends the piece. -/
theorem run_of_next?_eq_none (hm : road[p.cursor]? = some m) (h : p.next? road = none) :
    ∃ warnings last, Warning.unsettled ∉ warnings ∧
      ∀ budget, p.run road (budget + 1) =
        { arrivals := [p], warnings, ending := .fine, last } := by
  have hflow := flow_of_next?_eq_none hm h
  refine ⟨((p.playTo m.position).step road).warning.toList.reverse,
    ((p.playTo m.position).step road).performer, ?_, ?_⟩
  · rw [List.mem_reverse, Option.mem_toList]
    exact step_warning_ne_unsettled road _
  · intro budget
    unfold run runFrom
    simp [hm, hflow]

/-- How a performance with a budget ends: behind the arrivals `l` it has come to `a`, and
there it ran off, was broken off, or met a Fine. -/
inductive EndsAs (road : Roadmap) (budget : Nat) (l : List Performer) (a : Performer)
    (trace : Trace) : Prop where
  | ranOff (hending : trace.ending = .ranOff) (harrivals : trace.arrivals = l)
      (hlast : trace.last = a) (hover : road[a.cursor]? = none)
      (hwarnings : .unsettled ∉ trace.warnings)
  | unsettled (hending : trace.ending = .unsettled) (harrivals : trace.arrivals = l)
      (hmore : a.cursor < road.length) (hspent : l.length = budget)
  | fine (hending : trace.ending = .fine) (harrivals : trace.arrivals = l ++ [a])
      (hmark : a.cursor < road.length) (hstop : a.next? road = none)
      (hwarnings : .unsettled ∉ trace.warnings)

/-- One round earlier, the same end. -/
theorem EndsAs.round {budget : Nat} {a : Performer} {trace : Trace} {warnings : List Warning}
    (h : EndsAs road budget l a trace) (hw : Warning.unsettled ∉ warnings) :
    EndsAs road (budget + 1) (p :: l) a
      { trace with arrivals := p :: trace.arrivals, warnings := warnings ++ trace.warnings } := by
  cases h with
  | ranOff hending harrivals hlast hover hwarnings =>
    refine .ranOff hending (by rw [harrivals]) hlast hover ?_
    simpa [hw] using hwarnings
  | unsettled hending harrivals hmore hspent =>
    exact .unsettled hending (by rw [harrivals]) hmore (by rw [List.length_cons, hspent])
  | fine hending harrivals hmark hstop hwarnings =>
    refine .fine hending (by rw [harrivals, List.cons_append]) hmark hstop ?_
    simpa [hw] using hwarnings

/-- **A performance with a budget is a course with an end.** -/
theorem run_endsAs (road : Roadmap) (budget : Nat) (p : Performer) :
    ∃ l a, Course road p l a ∧ EndsAs road budget l a (p.run road budget) := by
  induction budget generalizing p with
  | zero =>
    cases hm : road[p.cursor]? with
    | none => exact ⟨[], p, .refl p, by rw [run_of_none hm]; exact .ranOff rfl rfl rfl hm (by simp)⟩
    | some m =>
      have hlt := (List.getElem?_eq_some_iff.mp hm).1
      exact ⟨[], p, .refl p, by rw [run_zero hm]; exact .unsettled rfl rfl hlt rfl⟩
  | succ budget ih =>
    cases hm : road[p.cursor]? with
    | none => exact ⟨[], p, .refl p, by rw [run_of_none hm]; exact .ranOff rfl rfl rfl hm (by simp)⟩
    | some m =>
      cases hnext : p.next? road with
      | none =>
        have hlt := (List.getElem?_eq_some_iff.mp hm).1
        obtain ⟨warnings, last, hw, hrun⟩ := run_of_next?_eq_none hm hnext
        exact ⟨[], p, .refl p, by rw [hrun]; exact .fine rfl rfl hlt hnext hw⟩
      | some q =>
        obtain ⟨l, a, hcourse, hends⟩ := ih q
        obtain ⟨warnings, hw, hrun⟩ := run_of_next? hnext
        exact ⟨p :: l, a, .round hnext hcourse, by rw [hrun]; exact hends.round hw⟩

/-- **A course is how a performance begins**: given a budget for its arrivals, the
performance takes these and goes on from its end. -/
theorem Course.run (h : Course road p l q) (budget : Nat) :
    (p.run road (l.length + budget)).arrivals = l ++ (q.run road budget).arrivals ∧
      (p.run road (l.length + budget)).ending = (q.run road budget).ending ∧
      (p.run road (l.length + budget)).last = (q.run road budget).last := by
  induction h with
  | refl p => simp
  | @round p q r l hnext _ ih =>
    obtain ⟨_, -, hrun⟩ := run_of_next? hnext
    have hlen : (p :: l).length + budget = l.length + budget + 1 := by
      rw [List.length_cons]
      omega
    obtain ⟨harrivals, hending, hlast⟩ := ih
    rw [hlen, hrun]
    exact ⟨by rw [harrivals, List.cons_append], hending, hlast⟩

/-- Behind one of its arrivals a performance goes on as if it had begun there. -/
theorem exists_run_behind {before after : List Performer} {a b : Performer} {budget : Nat}
    (h : (p.run road budget).arrivals = before ++ a :: after) (hnext : a.next? road = some b) :
    ∃ rest, (b.run road rest).arrivals = after ∧
      (b.run road rest).ending = (p.run road budget).ending ∧
      (b.run road rest).last = (p.run road budget).last := by
  induction budget generalizing p before with
  | zero =>
    cases hm : road[p.cursor]? with
    | none => simp [run_of_none hm] at h
    | some m => simp [run_zero hm] at h
  | succ budget ih =>
    cases hm : road[p.cursor]? with
    | none => simp [run_of_none hm] at h
    | some m =>
      cases hround : p.next? road with
      | none =>
        -- the only arrival is at the end
        obtain ⟨_, _, -, hrun⟩ := run_of_next?_eq_none hm hround
        rw [hrun] at h
        obtain ⟨-, rfl, -⟩ : before = [] ∧ a = p ∧ after = [] := by
          cases before <;> simp_all
        exact nomatch hround.symm.trans hnext
      | some q =>
        obtain ⟨_, -, hrun⟩ := run_of_next? hround
        rw [hrun] at h ⊢
        cases before with
        | nil =>
          obtain ⟨rfl, hafter⟩ := List.cons.inj h
          obtain rfl := Option.some.inj (hround.symm.trans hnext)
          exact ⟨budget, hafter, rfl, rfl⟩
        | cons c before => exact ih (List.cons.inj h).2

/-- The first arrival at a mark is the performer itself. -/
theorem exists_arrivals_cons (hin : p.cursor < road.length) (budget : Nat) :
    ∃ rest, (p.run road (budget + 1)).arrivals = p :: rest := by
  have hm := List.getElem?_eq_getElem hin
  cases hnext : p.next? road with
  | none =>
    obtain ⟨_, _, -, hrun⟩ := run_of_next?_eq_none hm hnext
    exact ⟨[], by rw [hrun]⟩
  | some q =>
    obtain ⟨_, -, hrun⟩ := run_of_next? hnext
    exact ⟨_, by rw [hrun]⟩

/-- A performance takes a course, unless its budget is spent on the way. -/
theorem Course.run_cases (h : Course road p l q) (budget : Nat) :
    (∃ rest, budget = l.length + rest) ∨
      budget < l.length ∧ (p.run road budget).ending = .unsettled ∧
        (p.run road budget).arrivals = l.take budget := by
  rcases Nat.lt_or_ge budget l.length with hlt | hge
  · refine .inr ⟨hlt, ?_⟩
    -- the course up to the arrival at which the budget is spent
    have hcut : l = l.take budget ++ l[budget] :: l.drop (budget + 1) := by simp
    have hcourse := (hcut ▸ h).split.1
    obtain ⟨m, hm⟩ : ∃ m, road[l[budget].cursor]? = some m :=
      ⟨_, List.getElem?_eq_getElem (h.cursor_lt _ (List.getElem_mem hlt))⟩
    obtain ⟨harrivals, hending, -⟩ := hcourse.run 0
    have hlength : (l.take budget).length + 0 = budget := by simp [Nat.le_of_lt hlt]
    rw [hlength, run_zero hm] at harrivals hending
    exact ⟨hending, by rw [harrivals, List.append_nil]⟩
  · exact .inl ⟨budget - l.length, by omega⟩

end Performer

/-- What a performance plays and finds amiss is told by its trace, also for a score without
segments. -/
theorem perform_eq (settings : Settings) (score : List Segment) :
    perform settings score =
      let road := Roadmap.ofScore score
      let trace := ({} : Performer).run road (settings.budget road.length)
      { passages := trace.arrivals.flatMap (arrivalPassages score road) ++
          closingPassages score trace
        warnings := trace.warnings } := by
  cases score with
  | nil =>
    have hnone : (Roadmap.ofScore [])[({} : Performer).cursor]? = none := rfl
    dsimp only
    rw [Performer.run_of_none hnone]
    rfl
  | cons s rest => rfl

end Playthrough
