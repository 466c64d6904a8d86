import Playthrough.Proofs.Sections

/-!
# Steps

A performer can be stepped from mark to mark without any music, on roadmaps of any order.
`Steps road p l q` is a chain of such steps, and `steps_keep_order` is what the numbers of a
performer mean at the end of every chain:

- the cursor stays on the roadmap;
- the `||:` in mind is behind, with no close of endings in between;
- a count of repeats is on its way to the `:||` that set it, and no other sign that repeats
  or closes endings comes first;
- a pass is the pass of a section whose close is still ahead.
-/

namespace Playthrough

namespace Roadmap

variable {road : Roadmap} {pass i f : Nat}

/-- A rest is never behind. -/
theorem le_rest (road : Roadmap) (pass i : Nat) : i ≤ road.rest pass i := by
  induction i using rest.induct road pass with
  | case1 i j h ih =>
    rw [rest_of_glide? h]
    exact Nat.le_trans (Nat.le_of_lt (lt_of_glide? h)) ih
  | case2 i h => exact Nat.le_of_eq (rest_of_eq_none h).symm

/-- A close of endings stands at the index or behind it. -/
def CloseAhead (road : Roadmap) (i : Nat) : Prop :=
  ∃ f, i ≤ f ∧ road.kindAt? f = some .finalVoltaEnd

theorem CloseAhead.mono (h : road.CloseAhead i) {j : Nat} (hji : j ≤ i) : road.CloseAhead j := by
  obtain ⟨f, hif, hf⟩ := h
  exact ⟨f, Nat.le_trans hji hif, hf⟩

/-- A glide leaves every close of endings ahead. -/
theorem CloseAhead.of_glide? (h : road.CloseAhead i) {j : Nat}
    (hglide : road.glide? pass i = some j) : road.CloseAhead j := by
  obtain ⟨f, hif, hf⟩ := h
  refine ⟨f, Nat.le_of_not_lt fun hfj => ?_, hf⟩
  exact ne_finalVoltaEnd_of_glide? hglide hif hfj hf

/-- Marks of another kind do so too. -/
theorem CloseAhead.succ {kind : MarkKind} (h : road.CloseAhead i)
    (hkind : road.kindAt? i = some kind) (hne : kind ≠ .finalVoltaEnd) :
    road.CloseAhead (i + 1) := by
  obtain ⟨f, hif, hf⟩ := h
  refine ⟨f, Nat.lt_of_le_of_ne hif ?_, hf⟩
  rintro rfl
  exact hne (Option.some.inj (hkind.symm.trans hf))

end Roadmap

namespace Performer

variable {road : Roadmap} {p q r : Performer} {l : List Performer} {t : Nat}

/-! ## Chains of steps -/

/-- From `p`, one step after the other leads to `q`, each at a mark; `l` are the performers
at these marks. A step that ends the piece stays where it is. -/
inductive Steps (road : Roadmap) : Performer → List Performer → Performer → Prop where
  | refl (p : Performer) : Steps road p [] p
  | step {p q : Performer} {l : List Performer} (hin : p.cursor < road.length)
      (hrest : Steps road (p.step road).performer l q) : Steps road p (p :: l) q

theorem Steps.cons (hin : p.cursor < road.length) (hstep : (p.step road).performer = q)
    (hrest : Steps road q l r) : Steps road p (p :: l) r := by
  subst hstep
  exact .step hin hrest

/-- What a step at a mark preserves, a chain of steps preserves. -/
theorem Steps.preserves {I : Performer → Prop}
    (hstep : ∀ {p}, I p → p.cursor < road.length → I (p.step road).performer)
    (h : Steps road p l q) (hp : I p) : I q := by
  induction h with
  | refl p => exact hp
  | step hin _ ih => exact ih (hstep hp hin)

/-- Whoever ends the piece stays at the mark. -/
theorem performer_of_stop (h : (p.step road).flow = .stop) : (p.step road).performer = p := by
  cases hm : road[p.cursor]? with
  | none => simp [step, hm]
  | some m =>
    obtain ⟨hmode, hkind⟩ := fine_of_flow_eq_stop hm h
    simp [step, hm, hmode, hkind, stepReplaying]

/-! ## Glides, step by step -/

theorem stepFirstTime_of_passedOver {kind : MarkKind}
    (hover : road.passedOver p.pass kind = true) :
    (p.stepFirstTime road kind).performer = p.advance := by
  cases kind with
  | volta numbers =>
    have hpass : p.pass ∈ numbers := of_decide_eq_true hover
    simp [stepFirstTime, atVolta, hpass]
  | dalSegno label =>
    have hnone : road.firstSegno? label = none := Option.isNone_iff_eq_none.mp hover
    by_cases hfollowed : p.cursor ∈ p.followed
    · simp [stepFirstTime, atDalSegno, hfollowed]
    · simp [stepFirstTime, atDalSegno, hfollowed, hnone]
  | repeatForward | repeatBackward times | finalVoltaEnd | daCapo =>
    simp [Roadmap.passedOver] at hover
  | segno label | coda label | toCoda label | fine => rfl

/-- A step along a glide moves the cursor, and at most what was shown. -/
theorem step_of_glide? {j : Nat} (hmode : p.mode = .firstTime)
    (hglide : road.glide? p.pass p.cursor = some j) :
    ∃ shown, (p.step road).performer = { p with cursor := j, shown := shown } := by
  rcases Roadmap.glide?_cases hglide with ⟨kind, hkind, hover, rfl⟩ | ⟨numbers, hkind, hpass, rfl⟩
  · obtain ⟨m, hm, rfl⟩ := Roadmap.exists_mark_of_kindAt? hkind
    refine ⟨p.shown, ?_⟩
    rw [step_of_firstTime hm hmode]
    exact stepFirstTime_of_passedOver hover
  · obtain ⟨m, hm, hm'⟩ := Roadmap.exists_mark_of_kindAt? hkind
    refine ⟨(p.jumpTo road (road.nextEndingBoundary p.cursor)).shown, ?_⟩
    rw [step_of_firstTime hm hmode, hm']
    show p.atVolta road numbers = _
    rw [atVolta, if_neg hpass]
    rfl

/-- A performer steps along its glide to the place where it comes to rest. -/
theorem exists_steps_to_rest (road : Roadmap) (hmode : p.mode = .firstTime) :
    ∃ way shown, Steps road p way { p with cursor := road.rest p.pass p.cursor, shown := shown } ∧
      ∀ a ∈ way, Glides road a := by
  generalize hpass : p.pass = pass
  generalize hi : p.cursor = i
  induction i using Roadmap.rest.induct road pass generalizing p with
  | case1 i j h ih =>
    subst hi hpass
    obtain ⟨shown, hstep⟩ := step_of_glide? hmode h
    obtain ⟨way, shown', hway, hglides⟩ :=
      ih (p := { p with cursor := j, shown := shown }) hmode rfl rfl
    refine ⟨p :: way, shown', ?_, ?_⟩
    · rw [Roadmap.rest_of_glide? h]
      exact .cons (Roadmap.lt_length_of_glide? h) hstep hway
    · intro a ha
      rcases List.mem_cons.mp ha with rfl | ha
      · exact ⟨hmode, j, h⟩
      · exact hglides a ha
  | case2 i h =>
    subst hi hpass
    rw [Roadmap.rest_of_eq_none h]
    exact ⟨[], p.shown, .refl p, fun a ha => absurd ha List.not_mem_nil⟩

/-! ## What every step keeps -/

/-- What is kept from step to step: the books as long as no command is followed, and beyond
them what holds on the whole roadmap. -/
structure Upkeep (road : Roadmap) (p : Performer) : Prop where
  within : p.cursor ≤ road.length
  pass_pos : 1 ≤ p.pass
  pass_le : p.pass ≤ road.highestVolta
  books : p.mode = .firstTime → Bookkeeping road p
  closeAhead : p.mode = .firstTime → 1 < p.pass → road.CloseAhead p.cursor

theorem Upkeep.init (road : Roadmap) : Upkeep road {} where
  within := Nat.zero_le _
  pass_pos := Nat.le_refl 1
  pass_le := road.one_le_highestVolta
  books _ := .init road
  closeAhead _ h := absurd h (Nat.lt_irrefl 1)

/-- Every turn leads to a mark or to the end of the roadmap. -/
theorem Upkeep.within_turn (h : Upkeep road p) (hin : p.cursor < road.length)
    (hturn : Turn road p q) : q.cursor ≤ road.length := by
  cases hturn with
  | goBack hmode hkind hstart hleft | nextPass hmode hkind hstart hpass =>
    exact Nat.le_of_lt (Roadmap.lt_length_of_kindAt? ((h.books hmode).opened _ hstart).1)
  | skip hmode hkind hpass => exact road.nextEndingBoundary_le p.cursor
  | daCapo hkind hnew => exact Nat.zero_le _
  | dalSegno hkind hnew htarget => exact Nat.le_of_lt (Roadmap.lt_length_of_firstSegno? htarget)
  | toCoda hmode hkind htarget => exact Nat.le_of_lt (Roadmap.lt_length_of_firstCoda? htarget)
  | _ => exact hin

/-- Passes are only counted the first time through. -/
theorem pass_of_turn (hturn : Turn road p q) (hmode : q.mode = .replaying) :
    q.pass = p.pass := by
  cases hturn with
  | nextPass hp hkind hstart hpass => exact nomatch hp.symm.trans hmode
  | lastPass hp hkind hdone => exact nomatch hp.symm.trans hmode
  | _ => rfl

/-- A close of endings stays ahead until it ends the passes. -/
theorem Upkeep.closeAhead_turn (h : Upkeep road p) (hturn : Turn road p q)
    (hmode : q.mode = .firstTime) (hq : 1 < q.pass) : road.CloseAhead q.cursor := by
  cases hturn with
  | opening hp hkind | closing hp hkind hdone => exact (h.closeAhead hp hq).succ hkind (by simp)
  | goBack hp hkind hstart hleft =>
    -- the `||:` is in front of the `:||`, and so of the close
    obtain ⟨hlt, -⟩ := (h.books hp).rest_of_repeatBackward hkind hstart
    exact (h.closeAhead hp hq).mono (Nat.le_of_lt hlt)
  | passOver hp hkind hover =>
    exact (h.closeAhead hp hq).of_glide? (Roadmap.glide?_of_passedOver hkind hover)
  | skip hp hkind hpass =>
    exact (h.closeAhead hp hq).of_glide? (Roadmap.glide?_of_skip hkind hpass)
  | nextPass hp hkind hstart hpass =>
    obtain ⟨hlt, -⟩ := (h.books hp).rest_of_finalVoltaEnd hkind hstart
    exact ⟨p.cursor, Nat.le_of_lt hlt, hkind⟩
  | lastPass hp hkind hdone => exact absurd hq (Nat.lt_irrefl 1)
  | daCapo hkind hnew => exact nomatch hmode
  | dalSegno hkind hnew htarget => exact nomatch hmode
  | passCommand hold =>
    rw [(h.books hmode).followed_nil] at hold
    exact nomatch hold
  | replayOver hp hkind hover => exact nomatch hp.symm.trans hmode
  | toCoda hp hkind htarget => exact nomatch hp.symm.trans hmode

theorem Upkeep.turn (h : Upkeep road p) (hin : p.cursor < road.length) (hturn : Turn road p q) :
    Upkeep road q where
  within := h.within_turn hin hturn
  pass_pos := by
    cases hmode : q.mode with
    | firstTime => exact (Bookkeeping.turn h.books hturn hmode).pass_pos
    | replaying => exact pass_of_turn hturn hmode ▸ h.pass_pos
  pass_le := by
    cases hmode : q.mode with
    | firstTime => exact (Bookkeeping.turn h.books hturn hmode).pass_le
    | replaying => exact pass_of_turn hturn hmode ▸ h.pass_le
  books := Bookkeeping.turn h.books hturn
  closeAhead := h.closeAhead_turn hturn

/-- **Every step at a mark keeps it**, the one that ends the piece included. -/
theorem Upkeep.step (h : Upkeep road p) (hin : p.cursor < road.length) :
    Upkeep road (p.step road).performer := by
  cases hflow : (p.step road).flow with
  | goOn => exact h.turn hin (turn_of_step hflow)
  | stop =>
    rw [performer_of_stop hflow]
    exact h

theorem Steps.upkeep (h : Steps road {} l p) : Upkeep road p :=
  h.preserves Upkeep.step (.init road)

/-- The music of a performance changes nothing about it. -/
theorem Reached.upkeep (h : Reached road p) : Upkeep road p := by
  refine h.invariant (.init road) fun {p q} hp hnext => ?_
  obtain ⟨m, -, hturn⟩ := turn_of_next? hnext
  have hplayed : Upkeep road (p.playTo m.position) :=
    ⟨hp.within, hp.pass_pos, hp.pass_le, fun hmode => (hp.books hmode).playTo m.position,
      hp.closeAhead⟩
  exact hplayed.turn (cursor_lt_of_next? hnext) hturn

/-! ## What the numbers mean -/

/-- From `p` on the count `left` is on its way: step by step the performer comes to a `:||`
with a higher number, and still has the count and its `||:` at `t` in mind. On the way there
is no other sign that repeats, nor a close of endings. -/
def CountsFor (road : Roadmap) (p : Performer) (t left : Nat) : Prop :=
  ∃ way q times, Steps road p way q ∧ p.cursor ≤ q.cursor ∧
    road.kindAt? q.cursor = some (.repeatBackward times) ∧ left < times ∧
    q.mode = .firstTime ∧ q.repeatStart = some t ∧ q.repeatsLeft = some left ∧
    ∀ a ∈ way, ∀ kind, road.kindAt? a.cursor = some kind →
      kind ≠ .finalVoltaEnd ∧ (∀ n, kind ≠ .repeatBackward n) ∧
      (kind = .repeatForward → a.cursor = t)

/-- The numbers of a performer are in order. -/
structure InOrder (road : Roadmap) (p : Performer) : Prop where
  /-- The cursor is at a mark or at the end of the roadmap. -/
  within : p.cursor ≤ road.length
  /-- The `||:` in mind is one, not ahead of the cursor, and in the same section. -/
  opening : p.mode = .firstTime → ∀ t, p.repeatStart = some t →
    t ≤ p.cursor ∧ road.kindAt? t = some .repeatForward ∧
      ∀ f, t < f → f < p.cursor → road.kindAt? f ≠ some .finalVoltaEnd
  /-- A count belongs to the `||:` in mind and to the `:||` that comes next. -/
  count : p.mode = .firstTime → ∀ left, p.repeatsLeft = some left →
    ∃ t, p.repeatStart = some t ∧ CountsFor road p t left
  /-- Passes are counted from one. -/
  pass_pos : 1 ≤ p.pass
  /-- The pass is not above the highest ending. -/
  pass_le : p.pass ≤ road.highestVolta
  /-- On a later pass than the first one, a close of endings is ahead. -/
  closeAhead : p.mode = .firstTime → 1 < p.pass → road.CloseAhead p.cursor

/-- Marks on which a performer glides neither repeat nor close endings. -/
theorem Glides.kind_ne {a : Performer} (h : Glides road a) {kind : MarkKind}
    (hkind : road.kindAt? a.cursor = some kind) :
    kind ≠ .finalVoltaEnd ∧ (∀ n, kind ≠ .repeatBackward n) ∧ kind ≠ .repeatForward := by
  obtain ⟨-, j, hj⟩ := h
  have hstops (hover : road.passedOver a.pass kind = false)
      (hvolta : ∀ numbers, kind ≠ .volta numbers) : False := by
    rw [Roadmap.glide?_eq_none hkind hover hvolta] at hj
    cases hj
  refine ⟨?_, ?_, ?_⟩
  · rintro rfl
    exact hstops rfl (by simp)
  · rintro n rfl
    exact hstops rfl (by simp)
  · rintro rfl
    exact hstops rfl (by simp)

/-- A count that is kept in the books is on its way. -/
theorem Bookkeeping.countsFor {left : Nat} (h : Bookkeeping road p) (hmode : p.mode = .firstTime)
    (hleft : p.repeatsLeft = some left) :
    ∃ t, p.repeatStart = some t ∧ CountsFor road p t left := by
  obtain ⟨t, times, hstart, hat, hlt⟩ := h.counting left hleft
  obtain ⟨hopen, hwhere⟩ := h.opened t hstart
  refine ⟨t, hstart, ?_⟩
  rcases hwhere with heq | ⟨htp, hrest⟩
  · -- at the `||:` itself, its step comes in front of the glide
    subst heq
    obtain ⟨m, hm, hkind⟩ := Roadmap.exists_mark_of_kindAt? hopen
    have hopening : (p.step road).performer =
        { p with repeatStart := some p.cursor }.advance := by
      rw [step_of_firstTime hm hmode, hkind]
      rfl
    obtain ⟨way, shown, hway, hglides⟩ :=
      exists_steps_to_rest (p := { p with repeatStart := some p.cursor }.advance) road hmode
    have hin := Roadmap.lt_length_of_kindAt? hopen
    refine ⟨p :: way, _, times, .cons hin hopening hway, ?_, hat, hlt, hmode, rfl, hleft, ?_⟩
    · exact Nat.le_trans (Nat.le_succ p.cursor) (road.le_rest p.pass (p.cursor + 1))
    · intro a ha kind hk
      rcases List.mem_cons.mp ha with rfl | ha
      · obtain rfl : .repeatForward = kind := Option.some.inj (hopen.symm.trans hk)
        exact ⟨by simp, by simp, fun _ => rfl⟩
      · obtain ⟨hclose, hback, hforward⟩ := (hglides a ha).kind_ne hk
        exact ⟨hclose, hback, fun h => absurd h hforward⟩
  · obtain ⟨way, shown, hway, hglides⟩ := exists_steps_to_rest road hmode
    refine ⟨way, _, times, hway, road.le_rest p.pass p.cursor, ?_, hlt, hmode, hstart, hleft, ?_⟩
    · rw [← hrest]
      exact hat
    · intro a ha kind hk
      obtain ⟨hclose, hback, hforward⟩ := (hglides a ha).kind_ne hk
      exact ⟨hclose, hback, fun h => absurd h hforward⟩

/-- **The numbers of a performer are in order after every chain of steps**: no section of the
roadmap leaves anything behind for another one. -/
theorem steps_keep_order (h : Steps road {} l p) : InOrder road p := by
  have hkeep := h.upkeep
  constructor
  case within => exact hkeep.within
  case opening =>
    intro hmode t hstart
    obtain ⟨hopen, rfl | ⟨hlt, hrest⟩⟩ := (hkeep.books hmode).opened t hstart
    · exact ⟨Nat.le_refl _, hopen, fun f htf hf => absurd hf (Nat.lt_asymm htf)⟩
    · refine ⟨Nat.le_of_lt hlt, hopen, fun f htf hf => ?_⟩
      -- what is behind the cursor is on the glide from the `||:`
      have hway : f < road.rest p.pass (t + 1) := by
        rw [hrest]
        exact Nat.lt_of_lt_of_le hf (road.le_rest p.pass p.cursor)
      exact Roadmap.ne_finalVoltaEnd_of_lt_rest htf hway
  case count => exact fun hmode left hleft => (hkeep.books hmode).countsFor hmode hleft
  case pass_pos => exact hkeep.pass_pos
  case pass_le => exact hkeep.pass_le
  case closeAhead => exact hkeep.closeAhead

/-- A repeated section with two marks, to be played two more times. -/
def counting : Roadmap :=
  [{ segment := 0, mark := { kind := .repeatForward, x := .zero } },
    { segment := 0, mark := { kind := .repeatBackward 2, x := .one } }]

/-- The count of a performer that has come back to the `||:` is on its way. -/
theorem steps_keep_order_counting :
    let p : Performer := { cursor := 0, repeatStart := some 0, repeatsLeft := some 1 }
    Steps counting {} [{}, { cursor := 1, repeatStart := some 0 }] p ∧ InOrder counting p := by
  intro p
  have hsteps : Steps counting {} [{}, { cursor := 1, repeatStart := some 0 }] p :=
    .step (by decide) (.step (by decide) (.refl p))
  exact ⟨hsteps, steps_keep_order hsteps⟩

end Performer

end Playthrough
