import Playthrough.Proofs.Course

/-!
# Repeated sections

The first time through, all that a performer remembers about repeats and endings is
three numbers: the `||:` to go back to, the repeats that are left, and the pass. They
are shared by all sections of a score. This module shows that no section meddles with
the numbers of another one.

The way from one mark that matters to the next one is a *glide* over marks that only
move the performer on. Where a glide comes to rest (`Roadmap.rest`) depends on the
pass and on where it begins, and on nothing else. The invariant `Bookkeeping` says
that a performer who remembers a `||:` is gliding from it, and that one who counts
repeats is gliding to the very `:||` that counts.

- `Bookkeeping.turn`: every turn preserves the invariant;
- `Reached.bookkeeping`: it holds throughout every performance, until a D.C. or D.S.
  is followed.
-/

namespace Playthrough

/-! ## Maxima -/

theorem foldl_max_le_iff {l : List Nat} {b n : Nat} :
    l.foldl max b ≤ n ↔ b ≤ n ∧ ∀ x ∈ l, x ≤ n := by
  induction l generalizing b with
  | nil => simp
  | cons a l ih => rw [List.foldl_cons, ih, Nat.max_le, List.forall_mem_cons, and_assoc]

theorem init_le_foldl_max (l : List Nat) (b : Nat) : b ≤ l.foldl max b :=
  (foldl_max_le_iff.mp (Nat.le_refl _)).1

theorem le_foldl_max {l : List Nat} {b n : Nat} (h : n ∈ l) : n ≤ l.foldl max b :=
  (foldl_max_le_iff.mp (Nat.le_refl _)).2 n h

/-- A maximum depends only on what is in the list. -/
theorem foldl_max_congr {l l' : List Nat} {b : Nat} (h : ∀ n, n ∈ l ↔ n ∈ l') :
    l.foldl max b = l'.foldl max b := by
  refine Nat.le_antisymm (foldl_max_le_iff.mpr ?_) (foldl_max_le_iff.mpr ?_)
  · exact ⟨init_le_foldl_max l' b, fun n hn => le_foldl_max ((h n).mp hn)⟩
  · exact ⟨init_le_foldl_max l b, fun n hn => le_foldl_max ((h n).mpr hn)⟩

namespace Roadmap

variable {road : Roadmap} {pass i j k : Nat} {kind : MarkKind}

/-! ## Glides -/

/-- Where a mark that only moves the performer on leads to, on the given pass; no mark
that repeats, counts or is a command does so. -/
def glide? (road : Roadmap) (pass i : Nat) : Option Nat :=
  match road.kindAt? i with
  | some (.volta numbers) =>
    some (if pass ∈ numbers then i + 1 else road.nextEndingBoundary i)
  | some kind => if road.passedOver pass kind then some (i + 1) else none
  | none => none

theorem glide?_of_passedOver (hkind : road.kindAt? i = some kind)
    (hover : road.passedOver pass kind = true) : road.glide? pass i = some (i + 1) := by
  unfold glide?
  rw [hkind]
  cases kind with
  | volta numbers =>
    have hmem : pass ∈ numbers := of_decide_eq_true hover
    simp [hmem]
  | _ => simp [hover]

theorem glide?_of_skip {numbers : List Nat} (hkind : road.kindAt? i = some (.volta numbers))
    (hpass : pass ∉ numbers) : road.glide? pass i = some (road.nextEndingBoundary i) := by
  simp [glide?, hkind, hpass]

/-- Marks other than brackets stop a glide unless they are passed over. -/
theorem glide?_eq_none (hkind : road.kindAt? i = some kind)
    (hover : road.passedOver pass kind = false) (hvolta : ∀ numbers, kind ≠ .volta numbers) :
    road.glide? pass i = none := by
  unfold glide?
  rw [hkind]
  cases kind with
  | volta numbers => exact absurd rfl (hvolta numbers)
  | _ => simp [hover]

theorem glide?_cases (h : road.glide? pass i = some j) :
    (∃ kind, road.kindAt? i = some kind ∧ road.passedOver pass kind = true ∧ j = i + 1) ∨
      (∃ numbers, road.kindAt? i = some (.volta numbers) ∧ pass ∉ numbers ∧
        j = road.nextEndingBoundary i) := by
  unfold glide? at h
  split at h
  · rename_i numbers hkind
    by_cases hpass : pass ∈ numbers
    · rw [if_pos hpass] at h
      exact .inl ⟨_, hkind, decide_eq_true hpass, (Option.some.inj h).symm⟩
    · rw [if_neg hpass] at h
      exact .inr ⟨numbers, hkind, hpass, (Option.some.inj h).symm⟩
  · rename_i kind _ hkind
    by_cases hover : road.passedOver pass kind = true
    · rw [if_pos hover] at h
      exact .inl ⟨kind, hkind, hover, (Option.some.inj h).symm⟩
    · rw [if_neg hover] at h
      cases h
  · cases h

theorem lt_length_of_glide? (h : road.glide? pass i = some j) : i < road.length := by
  rcases glide?_cases h with ⟨_, hkind, -⟩ | ⟨_, hkind, -⟩
  · exact lt_length_of_kindAt? hkind
  · exact lt_length_of_kindAt? hkind

/-- A glide leads forward. -/
theorem lt_of_glide? (h : road.glide? pass i = some j) : i < j := by
  have hlt := lt_length_of_glide? h
  rcases glide?_cases h with ⟨_, -, -, rfl⟩ | ⟨_, -, -, rfl⟩
  · exact Nat.lt_succ_self i
  · exact lt_nextEndingBoundary hlt

/-- A glide does not lead across a close of endings. -/
theorem ne_finalVoltaEnd_of_glide? (h : road.glide? pass i = some j) (hik : i ≤ k)
    (hkj : k < j) : road.kindAt? k ≠ some .finalVoltaEnd := by
  intro hkind
  rcases glide?_cases h with ⟨kind, hi, hover, rfl⟩ | ⟨numbers, hi, -, rfl⟩
  · obtain rfl : k = i := by omega
    obtain rfl : kind = .finalVoltaEnd := Option.some.inj (hi.symm.trans hkind)
    cases hover
  · rcases Nat.lt_or_eq_of_le hik with hlt | rfl
    · exact nomatch isEndingBoundary_of_lt_nextEndingBoundary hlt hkj hkind
    · exact nomatch Option.some.inj (hi.symm.trans hkind)

/-- Where gliding on from an index comes to rest. -/
def rest (road : Roadmap) (pass i : Nat) : Nat :=
  match _h : road.glide? pass i with
  | some j => rest road pass j
  | none => i
termination_by road.length - i
decreasing_by
  have := lt_length_of_glide? _h
  have := lt_of_glide? _h
  omega

theorem rest_of_glide? (h : road.glide? pass i = some j) :
    road.rest pass i = road.rest pass j := by
  rw [rest]
  split
  · rename_i j' h'
    obtain rfl : j = j' := Option.some.inj (h.symm.trans h')
    rfl
  · rename_i h'
    exact nomatch h.symm.trans h'

theorem rest_of_eq_none (h : road.glide? pass i = none) : road.rest pass i = i := by
  rw [rest]
  split
  · rename_i h'
    exact nomatch h.symm.trans h'
  · rfl

/-- No close of endings is crossed on the way to the rest. -/
theorem ne_finalVoltaEnd_of_lt_rest (hik : i ≤ k) (hk : k < road.rest pass i) :
    road.kindAt? k ≠ some .finalVoltaEnd := by
  induction i using rest.induct road pass with
  | case1 i j h ih =>
    rw [rest_of_glide? h] at hk
    rcases Nat.lt_or_ge k j with hkj | hjk
    · exact ne_finalVoltaEnd_of_glide? h hik hkj
    · exact ih hjk hk
  | case2 i h =>
    rw [rest_of_eq_none h] at hk
    omega

/-! ## The number of passes -/

/-- The highest number of an ending bracket of the score, at least one. -/
def highestVolta (road : Roadmap) : Nat :=
  (road.flatMap fun m => m.kind.endingNumbers).foldl max 1

theorem one_le_highestVolta (road : Roadmap) : 1 ≤ road.highestVolta :=
  init_le_foldl_max _ 1

/-- No part of the score has a higher ending than the score. -/
theorem highestEnding_le (road : Roadmap) (first last : Nat) :
    road.highestEnding first last ≤ road.highestVolta := by
  refine foldl_max_le_iff.mpr ⟨road.one_le_highestVolta, fun n hn => le_foldl_max ?_⟩
  obtain ⟨m, hm, hn⟩ := List.mem_flatMap.mp hn
  exact List.mem_flatMap.mpr ⟨m, List.mem_of_mem_take (List.mem_of_mem_drop hm), hn⟩

end Roadmap

namespace Performer

variable {road : Roadmap} {p q : Performer}

/-! ## What is remembered -/

/-- What the three numbers of a performer mean as long as no D.C. or D.S. was followed. -/
structure Bookkeeping (road : Roadmap) (p : Performer) : Prop where
  /-- No command was followed. -/
  followed_nil : p.followed = []
  /-- Passes are counted from one. -/
  pass_pos : 1 ≤ p.pass
  /-- The pass is not above the highest ending. -/
  pass_le : p.pass ≤ road.highestVolta
  /-- The remembered index is that of a `||:`, which is under the cursor or from which
  the performer glides. -/
  opened : ∀ t, p.repeatStart = some t → road.kindAt? t = some .repeatForward ∧
    (p.cursor = t ∨ (t < p.cursor ∧ road.rest p.pass (t + 1) = road.rest p.pass p.cursor))
  /-- Repeats are counted by the `:||` at which the glide from the `||:` comes to rest. -/
  counting : ∀ k, p.repeatsLeft = some k → ∃ t times, p.repeatStart = some t ∧
    road.kindAt? (road.rest p.pass (t + 1)) = some (.repeatBackward times) ∧ k < times

namespace Bookkeeping

theorem init (road : Roadmap) : Bookkeeping road {} where
  followed_nil := rfl
  pass_pos := Nat.le_refl 1
  pass_le := road.one_le_highestVolta
  opened _ h := nomatch h
  counting _ h := nomatch h

/-- The `||:` of a performer at rest is behind, and the glide from it ends here. -/
theorem rest_eq {t : Nat} {kind : MarkKind} (h : Bookkeeping road p)
    (hkind : road.kindAt? p.cursor = some kind) (hopen : kind ≠ .repeatForward)
    (hstop : road.glide? p.pass p.cursor = none) (hstart : p.repeatStart = some t) :
    t < p.cursor ∧ road.rest p.pass (t + 1) = p.cursor := by
  obtain ⟨ht, rfl | ⟨hlt, hrest⟩⟩ := h.opened t hstart
  · exact absurd (Option.some.inj (hkind.symm.trans ht)) hopen
  · exact ⟨hlt, hrest.trans (Roadmap.rest_of_eq_none hstop)⟩

/-- At a mark that stops a glide but is no repeat sign nothing is counted. -/
theorem repeatsLeft_eq_none {kind : MarkKind} (h : Bookkeeping road p)
    (hkind : road.kindAt? p.cursor = some kind) (hopen : kind ≠ .repeatForward)
    (hclose : ∀ times, kind ≠ .repeatBackward times)
    (hstop : road.glide? p.pass p.cursor = none) : p.repeatsLeft = none := by
  cases hleft : p.repeatsLeft with
  | none => rfl
  | some k =>
    obtain ⟨t, times, hstart, hat, -⟩ := h.counting k hleft
    rw [(h.rest_eq hkind hopen hstop hstart).2] at hat
    exact absurd (Option.some.inj (hkind.symm.trans hat)) (hclose times)

/-- The `||:` that a `:||` goes back to. -/
theorem rest_of_repeatBackward {t times : Nat} (h : Bookkeeping road p)
    (hkind : road.kindAt? p.cursor = some (.repeatBackward times))
    (hstart : p.repeatStart = some t) :
    t < p.cursor ∧ road.rest p.pass (t + 1) = p.cursor :=
  h.rest_eq hkind (by simp) (Roadmap.glide?_eq_none hkind rfl (by simp)) hstart

/-- The `||:` that a close of endings goes back to. -/
theorem rest_of_finalVoltaEnd {t : Nat} (h : Bookkeeping road p)
    (hkind : road.kindAt? p.cursor = some .finalVoltaEnd) (hstart : p.repeatStart = some t) :
    t < p.cursor ∧ road.rest p.pass (t + 1) = p.cursor :=
  h.rest_eq hkind (by simp) (Roadmap.glide?_eq_none hkind rfl (by simp)) hstart

theorem repeatsLeft_of_finalVoltaEnd (h : Bookkeeping road p)
    (hkind : road.kindAt? p.cursor = some .finalVoltaEnd) : p.repeatsLeft = none :=
  h.repeatsLeft_eq_none hkind (by simp) (by simp) (Roadmap.glide?_eq_none hkind rfl (by simp))

/-- A glide keeps the books, wherever the music has been shown up to. -/
theorem glide {j : Nat} (h : Bookkeeping road p) (hglide : road.glide? p.pass p.cursor = some j)
    (shown : Option Position) : Bookkeeping road { p with cursor := j, shown } where
  followed_nil := h.followed_nil
  pass_pos := h.pass_pos
  pass_le := h.pass_le
  opened t hstart := by
    obtain ⟨ht, rfl | ⟨hlt, hrest⟩⟩ := h.opened t hstart
    · rw [Roadmap.glide?_eq_none ht rfl (by simp)] at hglide
      cases hglide
    · have hj := Roadmap.lt_of_glide? hglide
      exact ⟨ht, .inr ⟨Nat.lt_trans hlt hj, hrest.trans (Roadmap.rest_of_glide? hglide)⟩⟩
  counting := h.counting

/-- A `||:` is remembered, and a count under way is its own. -/
theorem opening (h : Bookkeeping road p)
    (hkind : road.kindAt? p.cursor = some .repeatForward) :
    Bookkeeping road { p with repeatStart := some p.cursor }.advance where
  followed_nil := h.followed_nil
  pass_pos := h.pass_pos
  pass_le := h.pass_le
  opened t hstart := by
    obtain rfl : p.cursor = t := Option.some.inj hstart
    exact ⟨hkind, .inr ⟨Nat.lt_succ_self p.cursor, rfl⟩⟩
  counting k hleft := by
    obtain ⟨t, times, hstart, hat, hk⟩ := h.counting k hleft
    obtain ⟨-, rfl | ⟨-, hrest⟩⟩ := h.opened t hstart
    · exact ⟨p.cursor, times, rfl, hat, hk⟩
    · -- the count of another `||:` would end at this one, which is no `:||`
      rw [hrest, Roadmap.rest_of_eq_none (Roadmap.glide?_eq_none hkind rfl (by simp))] at hat
      exact nomatch Option.some.inj (hkind.symm.trans hat)

theorem goBack {times target left : Nat} (h : Bookkeeping road p)
    (hkind : road.kindAt? p.cursor = some (.repeatBackward times))
    (hstart : p.repeatStart = some target) (hleft : p.repeatsLeft.getD times = left + 1) :
    Bookkeeping road ({ p with repeatsLeft := some left }.jumpTo road target) where
  followed_nil := h.followed_nil
  pass_pos := h.pass_pos
  pass_le := h.pass_le
  opened t ht := by
    obtain rfl : target = t := Option.some.inj (hstart.symm.trans ht)
    exact ⟨(h.opened target hstart).1, .inl rfl⟩
  counting k hk := by
    obtain rfl : left = k := Option.some.inj hk
    obtain ⟨-, hrest⟩ := h.rest_of_repeatBackward hkind hstart
    refine ⟨target, times, hstart, by rw [← hkind, ← hrest]; rfl, ?_⟩
    -- a new count is one below the number of the sign, any other one below the last count
    cases hcount : p.repeatsLeft with
    | none =>
      rw [hcount, Option.getD_none] at hleft
      omega
    | some k =>
      rw [hcount, Option.getD_some] at hleft
      obtain ⟨t, times', ht, hat, hlt⟩ := h.counting k hcount
      obtain rfl : target = t := Option.some.inj (hstart.symm.trans ht)
      rw [hrest, hkind] at hat
      obtain rfl : times = times' := by simpa using hat
      omega

theorem nextPass {target : Nat} (h : Bookkeeping road p)
    (hkind : road.kindAt? p.cursor = some .finalVoltaEnd)
    (hstart : p.repeatStart = some target)
    (hpass : p.pass < road.highestEnding target p.cursor) :
    Bookkeeping road ({ p with pass := p.pass + 1 }.jumpTo road target) where
  followed_nil := h.followed_nil
  pass_pos := Nat.le_succ_of_le h.pass_pos
  pass_le := Nat.le_trans hpass (road.highestEnding_le target p.cursor)
  opened t ht := by
    obtain rfl : target = t := Option.some.inj (hstart.symm.trans ht)
    exact ⟨(h.opened target hstart).1, .inl rfl⟩
  counting k hk := by
    exact nomatch (h.repeatsLeft_of_finalVoltaEnd hkind).symm.trans hk

theorem lastPass (h : Bookkeeping road p)
    (hkind : road.kindAt? p.cursor = some .finalVoltaEnd) :
    Bookkeeping road { p with pass := 1, repeatStart := none }.advance where
  followed_nil := h.followed_nil
  pass_pos := Nat.le_refl 1
  pass_le := road.one_le_highestVolta
  opened t ht := nomatch ht
  counting k hk := by
    exact nomatch (h.repeatsLeft_of_finalVoltaEnd hkind).symm.trans hk

/-- **Every turn keeps the books**, as long as no command is followed. -/
theorem turn (h : p.mode = .firstTime → Bookkeeping road p) (hturn : Turn road p q)
    (hmode : q.mode = .firstTime) : Bookkeeping road q := by
  cases hturn with
  | opening hp hkind => exact (h hp).opening hkind
  | goBack hp hkind hstart hleft => exact (h hp).goBack hkind hstart hleft
  | closing hp hkind hdone =>
    exact {
      followed_nil := (h hp).followed_nil
      pass_pos := (h hp).pass_pos
      pass_le := (h hp).pass_le
      opened := fun t ht => nomatch ht
      counting := fun k hk => nomatch hk }
  | passOver hp hkind hover =>
    exact (h hp).glide (Roadmap.glide?_of_passedOver hkind hover) p.shown
  | skip hp hkind hpass => exact (h hp).glide (Roadmap.glide?_of_skip hkind hpass) _
  | nextPass hp hkind hstart hpass => exact (h hp).nextPass hkind hstart hpass
  | lastPass hp hkind hdone => exact (h hp).lastPass hkind
  | daCapo hkind hnew => exact nomatch hmode
  | dalSegno hkind hnew htarget => exact nomatch hmode
  | passCommand hold =>
    rw [(h hmode).followed_nil] at hold
    exact nomatch hold
  | replayOver hp hkind hover => exact nomatch hp.symm.trans hmode
  | toCoda hp hkind htarget => exact nomatch hp.symm.trans hmode

/-- Playing up to a mark changes nothing in the books. -/
theorem playTo (h : Bookkeeping road p) (goal : Position) : Bookkeeping road (p.playTo goal) :=
  ⟨h.followed_nil, h.pass_pos, h.pass_le, h.opened, h.counting⟩

end Bookkeeping

/-- A round is a turn behind the music up to the mark. -/
theorem turn_of_next? (h : p.next? road = some q) :
    ∃ m, road[p.cursor]? = some m ∧ Turn road (p.playTo m.position) q := by
  obtain ⟨m, hm, hflow, rfl⟩ := next?_eq_some_iff.mp h
  exact ⟨m, hm, turn_of_step hflow⟩

theorem Bookkeeping.next (h : p.mode = .firstTime → Bookkeeping road p)
    (hnext : p.next? road = some q) (hmode : q.mode = .firstTime) : Bookkeeping road q := by
  obtain ⟨m, -, hturn⟩ := turn_of_next? hnext
  exact Bookkeeping.turn (p := p.playTo m.position) (fun hp => (h hp).playTo m.position) hturn hmode

/-- **The books are right throughout every performance**, until a D.C. or D.S. is
followed. -/
theorem Reached.bookkeeping (h : Reached road p) (hmode : p.mode = .firstTime) :
    Bookkeeping road p := by
  refine h.invariant (I := fun p => p.mode = .firstTime → Bookkeeping road p) ?_ ?_ hmode
  · exact fun _ => .init road
  · exact fun hp hnext hq => Bookkeeping.next hp hnext hq

/-! ## Gliding performers -/

/-- A performer at a mark that only moves on. -/
def Glides (road : Roadmap) (p : Performer) : Prop :=
  p.mode = .firstTime ∧ ∃ j, road.glide? p.pass p.cursor = some j

/-- The same performer with another count of repeats. -/
def recount (left : Option Nat) (p : Performer) : Performer := { p with repeatsLeft := left }

/-- A glide changes the cursor and what was shown, and the count of repeats has no part
in it. -/
theorem next?_of_glide? {j : Nat} (hmode : p.mode = .firstTime)
    (hglide : road.glide? p.pass p.cursor = some j) :
    ∃ shown, ∀ left, (p.recount left).next? road =
      some ({ p with cursor := j, shown := shown }.recount left) := by
  rcases Roadmap.glide?_cases hglide with ⟨kind, hkind, hover, rfl⟩ | ⟨numbers, hkind, hpass, rfl⟩
  · obtain ⟨m, hm, rfl⟩ := Roadmap.exists_mark_of_kindAt? hkind
    exact ⟨some m.position, fun left => next?_passOver (p := p.recount left) hm hmode hover⟩
  · obtain ⟨m, hm, hm'⟩ := Roadmap.exists_mark_of_kindAt? hkind
    exact ⟨((p.playTo m.position).jumpTo road (road.nextEndingBoundary p.cursor)).shown,
      fun left => next?_skip (p := p.recount left) hm hmode hm' hpass⟩

/-- Without a new count. -/
theorem exists_next?_of_glide? {j : Nat} (hmode : p.mode = .firstTime)
    (hglide : road.glide? p.pass p.cursor = some j) :
    ∃ shown, p.next? road = some { p with cursor := j, shown := shown } := by
  obtain ⟨shown, hnext⟩ := next?_of_glide? hmode hglide
  exact ⟨shown, hnext p.repeatsLeft⟩

/-- Gliding keeps everything in mind, and goes forward. -/
theorem Course.of_glides {l : List Performer} (h : Course road p l q)
    (hl : ∀ a ∈ l, Glides road a) :
    (∃ shown, q = { p with cursor := q.cursor, shown := shown }) ∧ p.cursor ≤ q.cursor ∧
      ∀ a ∈ l, p.cursor ≤ a.cursor ∧ a.cursor < q.cursor ∧ a.pass = p.pass := by
  induction h with
  | refl p => exact ⟨⟨p.shown, rfl⟩, Nat.le_refl _, fun a ha => nomatch ha⟩
  | @round p p' q l hnext hrest ih =>
    obtain ⟨hmode, j, hglide⟩ := hl p List.mem_cons_self
    obtain ⟨shown, hp'⟩ := exists_next?_of_glide? hmode hglide
    obtain rfl : { p with cursor := j, shown := shown } = p' :=
      Option.some.inj (hp'.symm.trans hnext)
    obtain ⟨⟨shown', hq⟩, hle, hall⟩ := ih fun a ha => hl a (List.mem_cons_of_mem p ha)
    have hj : p.cursor < j := Roadmap.lt_of_glide? hglide
    dsimp only at hle hall
    refine ⟨⟨shown', hq⟩, by omega, fun a ha => ?_⟩
    rcases List.mem_cons.mp ha with rfl | ha
    · exact ⟨Nat.le_refl _, by omega, rfl⟩
    · obtain ⟨hlo, hhi, hpass⟩ := hall a ha
      exact ⟨by omega, hhi, hpass⟩

/-- Gliding is the same whatever is counted. -/
theorem Course.recount {l : List Performer} (h : Course road p l q)
    (hl : ∀ a ∈ l, Glides road a) (left : Option Nat) :
    Course road (p.recount left) (l.map (Performer.recount left)) (q.recount left) := by
  induction h with
  | refl p => exact .refl _
  | @round p p' q l hnext hrest ih =>
    obtain ⟨hmode, j, hglide⟩ := hl p List.mem_cons_self
    obtain ⟨shown, hp'⟩ := next?_of_glide? hmode hglide
    obtain rfl : { p with cursor := j, shown := shown } = p' :=
      Option.some.inj ((hp' p.repeatsLeft).symm.trans hnext)
    exact .round (hp' left) (ih fun a ha => hl a (List.mem_cons_of_mem p ha))

end Performer

end Playthrough
