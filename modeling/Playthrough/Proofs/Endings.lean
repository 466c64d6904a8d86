import Playthrough.Proofs.Repeats

/-!
# Endings

A section with ending brackets is played once for each pass up to the highest number of
its brackets, and on each pass with the brackets that list it: `endings_unroll`.

- `Roadmap.brackets` are the brackets of a section, each from its sign to the next one or
  to the close;
- `passMusic` is the music of a pass: what all passes have in common, and behind it the
  brackets of this pass;
- `EndingSection` is what a section may hold: brackets, landmarks, and marks that lead
  nowhere the first time through.
-/

namespace Playthrough

/-! ## Brackets -/

/-- An ending bracket, from the mark that opens it to the mark in front of which it
ends. -/
structure Bracket where
  /-- The index of the mark that opens it. -/
  start : Nat
  /-- The index of the mark at which it stops. -/
  stop : Nat
  /-- The passes it is for. -/
  numbers : List Nat
deriving DecidableEq

namespace Roadmap

variable {road : Roadmap} {i j t f : Nat} {numbers : List Nat}

/-- The passes of the ending bracket that opens at an index. -/
def volta? (road : Roadmap) (i : Nat) : Option (List Nat) :=
  match road.kindAt? i with
  | some (.volta numbers) => some numbers
  | _ => none

/-- The first index from `first` on at which a bracket opens, or `last` if there is none in
front of it. -/
def nextVolta (road : Roadmap) (first last : Nat) : Nat :=
  ((List.range' first (last - first)).find? fun i => (road.volta? i).isSome).getD last

/-- The brackets that open from `first` on and in front of `last`, in the order of the
score. -/
def brackets (road : Roadmap) (first last : Nat) : List Bracket :=
  (List.range' first (last - first)).filterMap fun i =>
    (road.volta? i).map fun numbers => { start := i, stop := road.nextVolta (i + 1) last, numbers }

/-- The highest number of the brackets behind `t` and in front of `f`, at least one. -/
def passCount (road : Roadmap) (t f : Nat) : Nat :=
  ((road.brackets (t + 1) f).flatMap Bracket.numbers).foldl max 1

/-- The marks that may stand in a section with endings. -/
def withinEndings (road : Roadmap) : MarkKind → Bool
  | .volta _ => true
  | .segno _ | .coda _ | .toCoda _ | .fine => true
  | .dalSegno label => (road.firstSegno? label).isNone
  | .repeatForward | .repeatBackward _ | .finalVoltaEnd | .daCapo => false

/-- A section with endings, from a `||:` to the close of its last ending. -/
structure EndingSection (road : Roadmap) (t f : Nat) : Prop where
  /-- The section opens with a `||:`. -/
  opens : road.kindAt? t = some .repeatForward
  /-- The section ends with the close of its last ending. -/
  closes : road.kindAt? f = some .finalVoltaEnd
  /-- The close comes behind the opening. -/
  lt : t < f
  /-- Nothing in between would lead elsewhere the first time through. -/
  within : ∀ i kind, t < i → i < f → road.kindAt? i = some kind → road.withinEndings kind = true

theorem volta?_eq_some_iff :
    road.volta? i = some numbers ↔ road.kindAt? i = some (.volta numbers) := by
  unfold volta?
  split
  · rename_i numbers' hkind
    simp [hkind]
  · rename_i hnot
    simp only [reduceCtorEq, false_iff]
    exact hnot numbers

theorem range'_of_lt (h : i < j) :
    List.range' i (j - i) = i :: List.range' (i + 1) (j - (i + 1)) := by
  have hsub : j - i = j - (i + 1) + 1 := by omega
  rw [hsub, List.range'_succ]

theorem nextVolta_of_volta (h : i < f) (hvolta : road.volta? i = some numbers) :
    road.nextVolta i f = i := by
  unfold nextVolta
  rw [range'_of_lt h, List.find?_cons_of_pos (by rw [hvolta]; rfl)]
  rfl

theorem nextVolta_of_none (h : i < f) (hvolta : road.volta? i = none) :
    road.nextVolta i f = road.nextVolta (i + 1) f := by
  unfold nextVolta
  rw [range'_of_lt h, List.find?_cons_of_neg (by rw [hvolta]; simp)]

theorem nextVolta_self (road : Roadmap) (f : Nat) : road.nextVolta f f = f := by
  simp [nextVolta]

theorem brackets_of_volta (h : i < f) (hvolta : road.volta? i = some numbers) :
    road.brackets i f =
      { start := i, stop := road.nextVolta (i + 1) f, numbers } :: road.brackets (i + 1) f := by
  unfold brackets
  rw [range'_of_lt h, List.filterMap_cons, hvolta]
  rfl

theorem brackets_of_none (h : i < f) (hvolta : road.volta? i = none) :
    road.brackets i f = road.brackets (i + 1) f := by
  unfold brackets
  rw [range'_of_lt h, List.filterMap_cons, hvolta]
  rfl

theorem brackets_self (road : Roadmap) (f : Nat) : road.brackets f f = [] := by
  simp [brackets]

theorem lt_nextVolta (h : i < f) : i < road.nextVolta (i + 1) f := by
  unfold nextVolta
  cases hfind : (List.range' (i + 1) (f - (i + 1))).find? fun j => (road.volta? j).isSome with
  | none => exact h
  | some j =>
    have hmem := List.mem_of_find?_eq_some hfind
    rw [List.mem_range'_1] at hmem
    exact hmem.1

/-- Marks that open no bracket can be left out in front. -/
theorem skip_to_volta (hij : i ≤ j) (hjf : j ≤ f)
    (hnone : ∀ k, i ≤ k → k < j → road.volta? k = none) :
    road.nextVolta i f = road.nextVolta j f ∧ road.brackets i f = road.brackets j f := by
  induction hij with
  | refl => exact ⟨rfl, rfl⟩
  | @step j hij ih =>
    obtain ⟨hnext, hbrackets⟩ := ih (Nat.le_of_succ_le hjf) fun k hik hkj =>
      hnone k hik (Nat.lt_succ_of_lt hkj)
    have hvolta := hnone j hij (Nat.lt_succ_self j)
    rw [hnext, hbrackets, nextVolta_of_none hjf hvolta, brackets_of_none hjf hvolta]
    exact ⟨rfl, rfl⟩

theorem mem_brackets {b : Bracket} :
    b ∈ road.brackets i f ↔ i ≤ b.start ∧ b.start < f ∧
      road.volta? b.start = some b.numbers ∧ b.stop = road.nextVolta (b.start + 1) f := by
  unfold brackets
  rw [List.mem_filterMap]
  constructor
  · rintro ⟨j, hj, hb⟩
    obtain ⟨numbers, hvolta, rfl⟩ := Option.map_eq_some_iff.mp hb
    rw [List.mem_range'_1] at hj
    exact ⟨hj.1, by dsimp only; omega, hvolta, rfl⟩
  · rintro ⟨hi, hf, hvolta, hstop⟩
    refine ⟨b.start, List.mem_range'_1.mpr ⟨hi, by omega⟩, ?_⟩
    rw [hvolta, ← hstop]
    rfl

/-- The numbers that a close of endings looks through are those of the brackets on the way. -/
theorem mem_endingNumbers {n : Nat} :
    n ∈ ((road.take (f + 1)).drop t).flatMap (fun m => m.kind.endingNumbers) ↔
      ∃ i numbers, t ≤ i ∧ i ≤ f ∧ road.volta? i = some numbers ∧ n ∈ numbers := by
  rw [List.mem_flatMap]
  constructor
  · rintro ⟨m, hm, hn⟩
    obtain ⟨d, hd⟩ := List.mem_iff_getElem?.mp hm
    rw [List.getElem?_drop, List.getElem?_take] at hd
    split at hd
    · rename_i hlt
      have hkind := kindAt?_of_mark hd
      cases hm : m.kind with
      | volta numbers =>
        rw [hm] at hn hkind
        exact ⟨t + d, numbers, by omega, by omega, volta?_eq_some_iff.mpr hkind, hn⟩
      | _ =>
        rw [hm] at hn
        cases hn
    · cases hd
  · rintro ⟨i, numbers, hti, hif, hvolta, hn⟩
    obtain ⟨m, hm, hkind⟩ := exists_mark_of_kindAt? (volta?_eq_some_iff.mp hvolta)
    refine ⟨m, List.mem_iff_getElem?.mpr ⟨i - t, ?_⟩, ?_⟩
    · have hsum : t + (i - t) = i := by omega
      rw [List.getElem?_drop, List.getElem?_take, hsum, if_pos (by omega), hm]
    · rw [hkind]
      exact hn

theorem mem_bracketNumbers {n : Nat} :
    n ∈ (road.brackets i f).flatMap Bracket.numbers ↔
      ∃ j numbers, i ≤ j ∧ j < f ∧ road.volta? j = some numbers ∧ n ∈ numbers := by
  rw [List.mem_flatMap]
  constructor
  · rintro ⟨b, hb, hn⟩
    obtain ⟨hlo, hhi, hvolta, -⟩ := mem_brackets.mp hb
    exact ⟨b.start, b.numbers, hlo, hhi, hvolta, hn⟩
  · rintro ⟨j, numbers, hlo, hhi, hvolta, hn⟩
    exact ⟨{ start := j, stop := road.nextVolta (j + 1) f, numbers },
      mem_brackets.mpr ⟨hlo, hhi, hvolta, rfl⟩, hn⟩

namespace EndingSection

variable (h : EndingSection road t f)
include h

/-- **The performer counts as many passes as the brackets say**: neither end of the section
is a bracket. -/
theorem highestEnding_eq : road.highestEnding t f = road.passCount t f := by
  refine foldl_max_congr fun n => ?_
  rw [mem_endingNumbers, mem_bracketNumbers]
  constructor
  · rintro ⟨i, numbers, hti, hif, hvolta, hn⟩
    have hkind := volta?_eq_some_iff.mp hvolta
    refine ⟨i, numbers, Nat.lt_of_le_of_ne hti ?_, Nat.lt_of_le_of_ne hif ?_, hvolta, hn⟩
    · rintro rfl
      cases h.opens.symm.trans hkind
    · rintro rfl
      cases h.closes.symm.trans hkind
  · rintro ⟨i, numbers, hti, hif, hvolta, hn⟩
    exact ⟨i, numbers, Nat.le_of_succ_le hti, Nat.le_of_lt hif, hvolta, hn⟩

theorem kindAt?_eq_some (hti : t < i) (hif : i < f) :
    ∃ kind, road.kindAt? i = some kind ∧ road.withinEndings kind = true := by
  have hlt := Nat.lt_trans hif (lt_length_of_kindAt? h.closes)
  have hkind := kindAt?_of_mark (List.getElem?_eq_getElem hlt)
  exact ⟨_, hkind, h.within i _ hti hif hkind⟩

/-- What opens no bracket is passed over. -/
theorem passedOver (hti : t < i) (hif : i < f) (hvolta : road.volta? i = none) (pass : Nat) :
    ∃ kind, road.kindAt? i = some kind ∧ road.passedOver pass kind = true := by
  obtain ⟨kind, hkind, hwithin⟩ := h.kindAt?_eq_some hti hif
  refine ⟨kind, hkind, ?_⟩
  cases kind with
  | volta numbers => exact nomatch (volta?_eq_some_iff.mpr hkind).symm.trans hvolta
  | segno label => rfl
  | coda label => rfl
  | toCoda label => rfl
  | fine => rfl
  | dalSegno label => exact hwithin
  | repeatForward => exact nomatch hwithin
  | repeatBackward times => exact nomatch hwithin
  | finalVoltaEnd => exact nomatch hwithin
  | daCapo => exact nomatch hwithin

/-- A bracket that is skipped is left for the next bracket or for the close. -/
theorem nextEndingBoundary_spec (hti : t < i) (hif : i < f) :
    i < road.nextEndingBoundary i ∧ road.nextEndingBoundary i ≤ f ∧
      (∀ k, i < k → k < road.nextEndingBoundary i → road.volta? k = none) ∧
      (road.nextEndingBoundary i = f ∨
        ∃ numbers, road.volta? (road.nextEndingBoundary i) = some numbers) := by
  have hlength := lt_length_of_kindAt? h.closes
  have hle : road.nextEndingBoundary i ≤ f := by
    by_contra hgt
    have hno := isEndingBoundary_of_lt_nextEndingBoundary hif (by omega) h.closes
    cases hno
  refine ⟨lt_nextEndingBoundary (by omega), hle, fun k hik hk => ?_, ?_⟩
  · by_contra hsome
    obtain ⟨numbers, hvolta⟩ := Option.ne_none_iff_exists'.mp hsome
    have hno := isEndingBoundary_of_lt_nextEndingBoundary hik hk (volta?_eq_some_iff.mp hvolta)
    cases hno
  · rcases Nat.lt_or_eq_of_le hle with hlt | heq
    · rcases road.nextEndingBoundary_cases i with ⟨kind, hgt, hkind, hboundary⟩ | hend
      · have hwithin := h.within _ kind (Nat.lt_trans hti hgt) hlt hkind
        cases kind with
        | volta numbers => exact .inr ⟨numbers, volta?_eq_some_iff.mpr hkind⟩
        | finalVoltaEnd => exact nomatch hwithin
        | _ => exact nomatch hboundary
      · omega
    · exact .inl heq

end EndingSection

end Roadmap

/-! ## The music of a pass -/

section Music

variable {score : List Segment} {road : Roadmap} {i j f k : Nat} {numbers : List Nat}

/-- The music between two marks, from each mark on the way to the next one. -/
def stretch (score : List Segment) (road : Roadmap) (first last : Nat) : List Passage :=
  (List.range' first (last - first)).flatMap fun i => musicOfMove score road i (i + 1) .advance

theorem stretch_self (score : List Segment) (road : Roadmap) (i : Nat) :
    stretch score road i i = [] := by
  simp [stretch]

theorem stretch_of_lt (h : i < j) :
    stretch score road i j =
      musicOfMove score road i (i + 1) .advance ++ stretch score road (i + 1) j := by
  unfold stretch
  rw [Roadmap.range'_of_lt h, List.flatMap_cons]

/-- The music of the brackets for a pass that open from `first` on. -/
def bracketMusic (score : List Segment) (road : Roadmap) (pass first last : Nat) : List Passage :=
  ((road.brackets first last).filter fun b => decide (pass ∈ b.numbers)).flatMap fun b =>
    stretch score road b.start b.stop

/-- **The music of a pass** through a section with endings: from its opening to the first
bracket, or to the close without one, and then the brackets for this pass. -/
def passMusic (score : List Segment) (road : Roadmap) (t f pass : Nat) : List Passage :=
  stretch score road t (road.nextVolta (t + 1) f) ++ bracketMusic score road pass (t + 1) f

/-- The music of a pass from one of the marks in the section on. -/
def musicFrom (score : List Segment) (road : Roadmap) (pass i f : Nat) : List Passage :=
  stretch score road i (road.nextVolta i f) ++ bracketMusic score road pass i f

theorem musicFrom_self (score : List Segment) (road : Roadmap) (pass f : Nat) :
    musicFrom score road pass f f = [] := by
  simp [musicFrom, bracketMusic, Roadmap.nextVolta_self, Roadmap.brackets_self, stretch_self]

/-- From the opening of a bracket on there are only brackets. -/
theorem musicFrom_of_volta (h : i < f) (hvolta : road.volta? i = some numbers) :
    musicFrom score road k i f = bracketMusic score road k i f := by
  unfold musicFrom
  rw [Roadmap.nextVolta_of_volta h hvolta, stretch_self, List.nil_append]

/-- A mark that is passed over leaves the music to the next mark in front. -/
theorem musicFrom_of_none (h : i < f) (hvolta : road.volta? i = none) :
    musicFrom score road k i f =
      musicOfMove score road i (i + 1) .advance ++ musicFrom score road k (i + 1) f := by
  unfold musicFrom bracketMusic
  rw [Roadmap.nextVolta_of_none h hvolta, Roadmap.brackets_of_none h hvolta,
    stretch_of_lt (Roadmap.lt_nextVolta h), List.append_assoc]

/-- A bracket that is entered does so too. -/
theorem musicFrom_of_mem (h : i < f) (hvolta : road.volta? i = some numbers) (hk : k ∈ numbers) :
    musicFrom score road k i f =
      musicOfMove score road i (i + 1) .advance ++ musicFrom score road k (i + 1) f := by
  rw [musicFrom_of_volta h hvolta]
  unfold musicFrom bracketMusic
  rw [Roadmap.brackets_of_volta h hvolta, List.filter_cons_of_pos (by simpa using hk),
    List.flatMap_cons, stretch_of_lt (Roadmap.lt_nextVolta h), List.append_assoc]

/-- A bracket that is skipped leaves nothing, up to where the next one opens. -/
theorem musicFrom_of_notMem (h : i < f) (hvolta : road.volta? i = some numbers) (hk : k ∉ numbers)
    (hij : i < j) (hjf : j ≤ f) (hnone : ∀ n, i < n → n < j → road.volta? n = none)
    (hnext : j = f ∨ ∃ numbers, road.volta? j = some numbers) :
    musicFrom score road k i f = musicFrom score road k j f := by
  have hskip : bracketMusic score road k i f = bracketMusic score road k j f := by
    unfold bracketMusic
    rw [Roadmap.brackets_of_volta h hvolta, List.filter_cons_of_neg (by simpa using hk),
      (Roadmap.skip_to_volta hij hjf hnone).2]
  rw [musicFrom_of_volta h hvolta, hskip]
  rcases hnext with rfl | ⟨numbers, hj⟩
  · rw [musicFrom_self]
    simp [bracketMusic, Roadmap.brackets_self]
  · rcases Nat.lt_or_eq_of_le hjf with hlt | rfl
    · exact (musicFrom_of_volta hlt hj).symm
    · rw [musicFrom_self]
      simp [bracketMusic, Roadmap.brackets_self]

end Music

namespace Performer

variable {score : List Segment} {p q : Performer} {i t f : Nat}

/-! ## One pass -/

/-- One round in a section with endings: it leads ahead and plays what comes first of the
music that is left of the pass. -/
structure RoundWithin (score : List Segment) (f : Nat) (p q : Performer) : Prop where
  next : p.next? (Roadmap.ofScore score) = some q
  glides : Glides (Roadmap.ofScore score) p
  mode : q.mode = .firstTime
  pass : q.pass = p.pass
  ahead : p.cursor < q.cursor
  le : q.cursor ≤ f
  music : musicFrom score (Roadmap.ofScore score) p.pass p.cursor f =
    arrivalPassages score (Roadmap.ofScore score) q ++
      musicFrom score (Roadmap.ofScore score) p.pass q.cursor f

/-- A mark that is passed over, or a bracket that is entered. -/
theorem roundWithin_advance {kind : MarkKind} (hif : p.cursor < f) (hmode : p.mode = .firstTime)
    (hkind : (Roadmap.ofScore score).kindAt? p.cursor = some kind)
    (hover : (Roadmap.ofScore score).passedOver p.pass kind = true)
    (hmusic : musicFrom score (Roadmap.ofScore score) p.pass p.cursor f =
      musicOfMove score (Roadmap.ofScore score) p.cursor (p.cursor + 1) .advance ++
        musicFrom score (Roadmap.ofScore score) p.pass (p.cursor + 1) f) :
    ∃ q, RoundWithin score f p q := by
  obtain ⟨m, hm, rfl⟩ := Roadmap.exists_mark_of_kindAt? hkind
  refine ⟨(p.playTo m.position).advance, next?_passOver hm hmode hover, ?_, hmode, rfl,
    Nat.lt_succ_self p.cursor, hif, ?_⟩
  · exact ⟨hmode, p.cursor + 1, Roadmap.glide?_of_passedOver hkind hover⟩
  · rw [hmusic, arrivalPassages_of_advance hm rfl rfl]
    rfl

/-- In a section with endings there is always such a round. -/
theorem exists_roundWithin (hscore : HasPlaces score)
    (h : (Roadmap.ofScore score).EndingSection t f) (hti : t < p.cursor) (hif : p.cursor < f)
    (hmode : p.mode = .firstTime) : ∃ q, RoundWithin score f p q := by
  cases hvolta : (Roadmap.ofScore score).volta? p.cursor with
  | none =>
    obtain ⟨kind, hkind, hover⟩ := h.passedOver hti hif hvolta p.pass
    exact roundWithin_advance hif hmode hkind hover (musicFrom_of_none hif hvolta)
  | some numbers =>
    have hkind := Roadmap.volta?_eq_some_iff.mp hvolta
    by_cases hpass : p.pass ∈ numbers
    · exact roundWithin_advance hif hmode hkind (decide_eq_true hpass)
        (musicFrom_of_mem hif hvolta hpass)
    · obtain ⟨hlt, hle, hnone, hnext⟩ := h.nextEndingBoundary_spec hti hif
      obtain ⟨m, hm, hm'⟩ := Roadmap.exists_mark_of_kindAt? hkind
      refine ⟨_, next?_skip hm hmode hm' hpass, ⟨hmode, _, Roadmap.glide?_of_skip hkind hpass⟩,
        hmode, rfl, hlt, hle, ?_⟩
      -- the jump to the next bracket is silent
      rw [arrivalPassages_eq_musicUpTo]
      show _ = musicUpTo score _ _ ((Roadmap.ofScore score).nextEndingBoundary p.cursor) ++
        musicFrom score _ p.pass ((Roadmap.ofScore score).nextEndingBoundary p.cursor) f
      rw [musicUpTo_jumpTo hscore hm]
      exact musicFrom_of_notMem hif hvolta hpass hlt hle hnone hnext

/-- From every mark in a section with endings the performer glides to its close, with the
music that is left of the pass. -/
theorem exists_course_to_close (hscore : HasPlaces score)
    (h : (Roadmap.ofScore score).EndingSection t f) (hti : t < p.cursor) (hif : p.cursor ≤ f)
    (hmode : p.mode = .firstTime) :
    ∃ l b rest, Course (Roadmap.ofScore score) p l b ∧ b.cursor = f ∧
      (∀ a ∈ l, Glides (Roadmap.ofScore score) a) ∧ l ++ [b] = p :: rest ∧
      rest.flatMap (arrivalPassages score (Roadmap.ofScore score)) =
        musicFrom score (Roadmap.ofScore score) p.pass p.cursor f := by
  -- by induction on how far the close is ahead
  induction hahead : f - p.cursor using Nat.strongRecOn generalizing p with
  | ind n ih =>
    rcases Nat.lt_or_eq_of_le hif with hlt | heq
    · obtain ⟨q, hround⟩ := exists_roundWithin hscore h hti hlt hmode
      have hcloser : f - q.cursor < n := by
        have := hround.ahead
        omega
      obtain ⟨l, b, rest, hcourse, hb, hglides, hrest, hmusic⟩ :=
        ih _ hcloser (Nat.lt_trans hti hround.ahead) hround.le hround.mode rfl
      refine ⟨p :: l, b, q :: rest, .round hround.next hcourse, hb, ?_, ?_, ?_⟩
      · intro a ha
        rcases List.mem_cons.mp ha with rfl | ha
        · exact hround.glides
        · exact hglides a ha
      · rw [List.cons_append, hrest]
      · rw [List.flatMap_cons, hmusic, hround.pass, hround.music]
    · refine ⟨[], p, [], .refl p, heq, (fun a ha => nomatch ha), rfl, ?_⟩
      rw [heq, musicFrom_self]
      rfl

/-- A pass through a section with endings: from its opening to its close, with the music of
this pass behind what is played upon the opening. -/
structure PlaysPass (score : List Segment) (t f pass : Nat) (before : List Passage)
    (lap : List Performer) : Prop where
  /-- The pass goes from the opening to the close. -/
  isLap : IsLap t f lap
  /-- Mode and pass stay the same on the way. -/
  keeps : ∀ a ∈ lap, a.mode = .firstTime ∧ a.pass = pass
  /-- What is played is the music of the pass. -/
  music : lap.flatMap (arrivalPassages score (Roadmap.ofScore score)) =
    before ++ passMusic score (Roadmap.ofScore score) t f pass

/-- **One pass**, up to the arrival at the close, where the performer has only the opening
in mind in addition. -/
theorem exists_pass (hscore : HasPlaces score)
    (h : (Roadmap.ofScore score).EndingSection t f) (hmode : p.mode = .firstTime)
    (hcursor : p.cursor = t) :
    ∃ l b shown, Course (Roadmap.ofScore score) p l b ∧
      b = { p with cursor := f, repeatStart := some t, shown } ∧
      PlaysPass score t f p.pass (arrivalPassages score (Roadmap.ofScore score) p) (l ++ [b]) := by
  obtain ⟨m, hm, hkind⟩ := Roadmap.exists_mark_of_kindAt? h.opens
  subst hcursor
  have hopening := next?_opening hm hmode hkind
  generalize hq : { p with shown := some m.position, repeatStart := some p.cursor,
                           cursor := p.cursor + 1 } = q at hopening
  have hqmode : q.mode = .firstTime := by rw [← hq]; exact hmode
  have hqpass : q.pass = p.pass := by rw [← hq]
  have hqcursor : q.cursor = p.cursor + 1 := by rw [← hq]
  have hqshown : q.shown = some m.position := by rw [← hq]
  obtain ⟨l, b, rest, hcourse, hb, hglides, hrest, hmusic⟩ :=
    exists_course_to_close hscore h (hqcursor ▸ Nat.lt_succ_self p.cursor)
      (hqcursor ▸ h.lt) hqmode
  obtain ⟨⟨shown, hbeq⟩, -, hall⟩ := hcourse.of_glides hglides
  have hbpass : b.pass = p.pass := by rw [hbeq, hqpass]
  have hbmode : b.mode = .firstTime := by rw [hbeq, hqmode]
  refine ⟨p :: l, b, shown, .round hopening hcourse, ?_, ?_, ?_, ?_⟩
  · rw [hbeq, hb, ← hq]
  · refine ⟨p, l, b, rfl, rfl, hb, fun a ha => ?_⟩
    obtain ⟨hlo, hhi, -⟩ := hall a ha
    exact ⟨by omega, by omega⟩
  · intro a ha
    rcases List.mem_cons.mp ha with rfl | ha
    · exact ⟨hmode, rfl⟩
    · rcases List.mem_append.mp ha with ha | ha
      · exact ⟨(hglides a ha).1, (hall a ha).2.2.trans hqpass⟩
      · rw [List.mem_singleton.mp ha]
        exact ⟨hbmode, hbpass⟩
  · -- the opening is followed by the music up to the first bracket
    rw [List.cons_append, hrest, List.flatMap_cons, List.flatMap_cons, hmusic,
      arrivalPassages_of_advance hm hqshown hqcursor, hqpass, hqcursor]
    unfold passMusic musicFrom
    rw [stretch_of_lt (Roadmap.lt_nextVolta h.lt), List.append_assoc]

/-! ## All passes -/

/-- **How a section with endings is played** from `p` on, which has reached its opening:
in the given passes, and `q` is where the performance goes on. -/
structure PlaysEndings (score : List Segment) (t f : Nat) (p : Performer)
    (passes : List (List Performer)) (q : Performer) : Prop where
  /-- The passes come one after the other. -/
  course : Course (Roadmap.ofScore score) p passes.flatten q
  /-- Each plays its own music, and nothing is played upon going back. -/
  pass : ∀ k lap, passes[k]? = some lap → PlaysPass score t f (p.pass + k)
    (if k = 0 then arrivalPassages score (Roadmap.ofScore score) p else []) lap
  /-- Behind the close the performance goes on as before the section. -/
  leaves : q.cursor = f + 1 ∧ q.mode = .firstTime ∧ q.pass = 1 ∧ q.repeatStart = none

/-- The passes that are left, as many as there are numbers above the current one. -/
theorem exists_passes (hscore : HasPlaces score)
    (h : (Roadmap.ofScore score).EndingSection t f) (hmode : p.mode = .firstTime)
    (hcursor : p.cursor = t) (n : Nat)
    (hn : p.pass + n = (Roadmap.ofScore score).passCount t f) :
    ∃ passes q, passes.length = n + 1 ∧ PlaysEndings score t f p passes q := by
  obtain ⟨m, hm, hkind⟩ := Roadmap.exists_mark_of_kindAt? h.closes
  rw [← h.highestEnding_eq] at hn
  induction n generalizing p with
  | zero =>
    obtain ⟨l, b, shown, hcourse, rfl, hpass⟩ := exists_pass hscore h hmode hcursor
    have hlast := next?_lastPass (p := { p with cursor := f, repeatStart := some t, shown })
      hm hmode hkind rfl (Nat.le_of_eq hn.symm)
    refine ⟨[l ++ [{ p with cursor := f, repeatStart := some t, shown }]],
      { p with shown := some m.position, pass := 1, repeatStart := none, cursor := f + 1 }, rfl,
      ?_, ?_, rfl, hmode, rfl, rfl⟩
    · rw [List.flatten_singleton]
      exact hcourse.snoc hlast
    · intro k lap hlap
      obtain ⟨rfl, rfl⟩ : k = 0 ∧ _ = lap := by simpa [List.getElem?_singleton] using hlap
      exact hpass
  | succ n ih =>
    obtain ⟨l, b, shown, hcourse, rfl, hpass⟩ := exists_pass hscore h hmode hcursor
    have hnext := next?_nextPass (p := { p with cursor := f, repeatStart := some t, shown })
      hm hmode hkind rfl (show p.pass < (Roadmap.ofScore score).highestEnding t f by omega)
      (Nat.le_of_lt h.lt)
    obtain ⟨passes, q, hlength, hplays⟩ :=
      ih (p := { p with cursor := t, repeatStart := some t, shown := some m.position,
                        pass := p.pass + 1 }) hmode rfl (by dsimp only; omega)
    refine ⟨(l ++ [{ p with cursor := f, repeatStart := some t, shown }]) :: passes, q, ?_, ?_, ?_,
      hplays.leaves⟩
    · rw [List.length_cons, hlength]
    · rw [List.flatten_cons]
      exact (hcourse.snoc hnext).append hplays.course
    · intro k lap hlap
      cases k with
      | zero =>
        obtain rfl := Option.some.inj hlap
        exact hpass
      | succ k =>
        -- back at the opening, nothing is left to be played
        have hrest := hplays.pass k lap hlap
        rw [arrivalPassages_eq_nil hscore hm rfl h.lt, ite_self] at hrest
        rw [if_neg (Nat.succ_ne_zero k)]
        have hsum : p.pass + (k + 1) = p.pass + 1 + k := by omega
        rw [hsum]
        exact hrest

/-- **Endings unroll pass by pass.** From every performer at the opening of a section with
endings, on the first pass, the section is played once for each pass up to its highest
number, on each pass with the music to the first bracket and the brackets that list it;
both ends are visited once on each pass. -/
theorem endings_unroll (hscore : HasPlaces score)
    (h : (Roadmap.ofScore score).EndingSection t f) (hmode : p.mode = .firstTime)
    (hcursor : p.cursor = t) (hpass : p.pass = 1) :
    ∃ passes q, passes.length = (Roadmap.ofScore score).passCount t f ∧
      PlaysEndings score t f p passes q ∧
      (∀ budget, (p.run (Roadmap.ofScore score) (passes.flatten.length + budget)).arrivals =
        passes.flatten ++ (q.run (Roadmap.ofScore score) budget).arrivals) ∧
      (passes.flatten.map cursor).count t = (Roadmap.ofScore score).passCount t f ∧
      (passes.flatten.map cursor).count f = (Roadmap.ofScore score).passCount t f := by
  have hone : 1 ≤ (Roadmap.ofScore score).passCount t f := init_le_foldl_max _ 1
  obtain ⟨passes, q, hlength, hplays⟩ := exists_passes hscore h hmode hcursor
    ((Roadmap.ofScore score).passCount t f - 1) (by omega)
  have hcount : passes.length = (Roadmap.ofScore score).passCount t f := by omega
  have hlaps : ∀ lap ∈ passes, IsLap t f lap := by
    intro lap hlap
    obtain ⟨k, hk⟩ := List.mem_iff_getElem?.mp hlap
    exact (hplays.pass k lap hk).isLap
  obtain ⟨hcloses, hopens⟩ := count_flatten_laps hlaps h.lt
  exact ⟨passes, q, hcount, hplays, fun budget => (hplays.course.run budget).1,
    hopens.trans hcount, hcloses.trans hcount⟩

/-- A segment with two endings, the second of which is for two passes. -/
def threePasses : List Segment :=
  [{ id := default, marks := [{ kind := .repeatForward, x := .zero }] },
    { id := default, marks := [{ kind := .volta [1], x := .zero }] },
    { id := default, marks := [{ kind := .volta [2, 3], x := .zero },
      { kind := .finalVoltaEnd, x := .one }] }]

/-- A piece with endings for three passes opens and closes its section three times. -/
theorem endings_unroll_threePasses :
    HasPlaces threePasses ∧ (Roadmap.ofScore threePasses).EndingSection 0 3 ∧
      ∃ passes q, passes.length = 3 ∧ PlaysEndings threePasses 0 3 {} passes q ∧
        (passes.flatten.map cursor).count 0 = 3 ∧ (passes.flatten.map cursor).count 3 = 3 := by
  have hplaces : HasPlaces threePasses := by decide
  have hsection : (Roadmap.ofScore threePasses).EndingSection 0 3 := by
    refine ⟨by decide, by decide, by decide, fun i kind hlo hhi hkind => ?_⟩
    have hcases : i = 1 ∨ i = 2 := by omega
    rcases hcases with rfl | rfl
    · obtain rfl : .volta [1] = kind := Option.some.inj hkind
      rfl
    · obtain rfl : .volta [2, 3] = kind := Option.some.inj hkind
      rfl
  have hcount : (Roadmap.ofScore threePasses).passCount 0 3 = 3 := by decide
  obtain ⟨passes, q, hlength, hplays, -, hopens, hcloses⟩ :=
    endings_unroll hplaces hsection (show ({} : Performer).mode = .firstTime from rfl) rfl rfl
  rw [hcount] at hlength hopens hcloses
  exact ⟨hplaces, hsection, passes, q, hlength, hplays, hopens, hcloses⟩

example : (perform {} threePasses).passages.map Passage.index = [0, 1, 0, 2, 0, 2] := by decide

end Performer

end Playthrough
