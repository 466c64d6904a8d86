import Playthrough.Proofs.Music

/-!
# Repeats

A `:||` that is reached with a `||:` in mind goes back as often as it says, and each
time the performance takes the same way with the same music: `repeat_unrolls`.

The reason is in the books (`Bookkeeping`): all that happened since the `||:` is a
glide, a glide depends only on where it begins and on the pass, and a count of repeats
has no part in it. So the same glide leads back to the same `:||` until the count is
used up.
-/

namespace Playthrough

namespace Performer

variable {road : Roadmap} {score : List Segment} {p q s : Performer}
  {history way : List Performer} {t times : Nat}

/-! ## The way from the opening -/

/-- The arrivals behind the last one at a `||:` under `t`: all of them glide. -/
structure WayFrom (road : Roadmap) (t : Nat) (s : Performer) (way : List Performer) : Prop where
  cursor_eq : s.cursor = t
  mode_eq : s.mode = .firstTime
  glides : ∀ a ∈ way, Glides road a

/-- A performer who remembers a `||:` has been gliding since. -/
theorem Course.exists_wayFrom (h : Course road {} history p) (hmode : p.mode = .firstTime)
    (hstart : p.repeatStart = some t) (hne : p.cursor ≠ t) :
    ∃ before s way, history = before ++ s :: way ∧ WayFrom road t s way := by
  revert hmode hstart hne
  refine h.induction_snoc (P := fun history p => p.mode = .firstTime → p.repeatStart = some t →
    p.cursor ≠ t → ∃ before s way, history = before ++ s :: way ∧ WayFrom road t s way) ?_ ?_
  · exact fun _ hstart => nomatch hstart
  · intro l q r hl ih hnext hmode hstart hne
    -- a glide makes the way longer by one arrival
    have hglide : q.mode = .firstTime → q.repeatStart = some t →
        (∃ j, road.glide? q.pass q.cursor = some j) →
        ∃ before s way, l ++ [q] = before ++ s :: way ∧ WayFrom road t s way := by
      intro hq hqstart hj
      have hqne : q.cursor ≠ t := by
        rintro rfl
        obtain ⟨j, hj⟩ := hj
        have hopen := ((Reached.bookkeeping ⟨l, hl⟩ hq).opened _ hqstart).1
        rw [Roadmap.glide?_eq_none hopen rfl (by simp)] at hj
        cases hj
      obtain ⟨before, s, way, rfl, hway⟩ := ih hq hqstart hqne
      refine ⟨before, s, way ++ [q], by simp, hway.cursor_eq, hway.mode_eq, fun a ha => ?_⟩
      rcases List.mem_append.mp ha with ha | ha
      · exact hway.glides a ha
      · rw [List.mem_singleton.mp ha]
        exact ⟨hq, hj⟩
    obtain ⟨m, hm, hturn⟩ := turn_of_next? hnext
    cases hturn with
    | opening hq hkind =>
      exact ⟨l, q, [], rfl, Option.some.inj hstart, hq, fun a ha => nomatch ha⟩
    | goBack hq hkind hqstart hleft =>
      exact absurd (Option.some.inj (hqstart.symm.trans hstart)) hne
    | closing hq hkind hdone => exact nomatch hstart
    | passOver hq hkind hover =>
      exact hglide hq hstart ⟨_, Roadmap.glide?_of_passedOver hkind hover⟩
    | skip hq hkind hpass => exact hglide hq hstart ⟨_, Roadmap.glide?_of_skip hkind hpass⟩
    | nextPass hq hkind hqstart hpass =>
      exact absurd (Option.some.inj (hqstart.symm.trans hstart)) hne
    | lastPass hq hkind hdone => exact nomatch hstart
    | daCapo hkind hnew => exact nomatch hmode
    | dalSegno hkind hnew htarget => exact nomatch hmode
    | passCommand hold =>
      have hnil : q.followed = [] := (Reached.bookkeeping ⟨l, hl⟩ hmode).followed_nil
      rw [show (q.playTo m.position).followed = q.followed from rfl, hnil] at hold
      exact nomatch hold
    | replayOver hq hkind hover => exact nomatch hq.symm.trans hmode
    | toCoda hq hkind htarget => exact nomatch hq.symm.trans hmode

/-! ## Laps -/

/-- One more time through a section: back at its beginning `t`, on to its close `c`, and by
neither of them in between. -/
def IsLap (t c : Nat) (lap : List Performer) : Prop :=
  ∃ opening inner closing, lap = opening :: (inner ++ [closing]) ∧ opening.cursor = t ∧
    closing.cursor = c ∧ ∀ a ∈ inner, t < a.cursor ∧ a.cursor < c

theorem IsLap.count {c : Nat} {lap : List Performer} (h : IsLap t c lap) (hlt : t < c) :
    (lap.map cursor).count c = 1 ∧ (lap.map cursor).count t = 1 := by
  obtain ⟨opening, inner, closing, rfl, hopening, hclosing, hinner⟩ := h
  have hc : (inner.map cursor).count c = 0 := by
    refine List.count_eq_zero.mpr fun hmem => ?_
    obtain ⟨a, ha, hac⟩ := List.mem_map.mp hmem
    have := hinner a ha
    omega
  have ht : (inner.map cursor).count t = 0 := by
    refine List.count_eq_zero.mpr fun hmem => ?_
    obtain ⟨a, ha, hat⟩ := List.mem_map.mp hmem
    have := hinner a ha
    omega
  have hne : t ≠ c := Nat.ne_of_lt hlt
  simp [hopening, hclosing, hc, ht, hne, hne.symm]

/-- Each lap comes once by either end of the section. -/
theorem count_flatten_laps {c : Nat} {laps : List (List Performer)}
    (h : ∀ lap ∈ laps, IsLap t c lap) (hlt : t < c) :
    (laps.flatten.map cursor).count c = laps.length ∧
      (laps.flatten.map cursor).count t = laps.length := by
  induction laps with
  | nil => exact ⟨rfl, rfl⟩
  | cons lap laps ih =>
    obtain ⟨hc, ht⟩ := ih fun lap' hlap' => h lap' (List.mem_cons_of_mem lap hlap')
    obtain ⟨hc', ht'⟩ := (h lap List.mem_cons_self).count hlt
    rw [List.flatten_cons, List.map_append, List.count_append, List.count_append,
      List.length_cons]
    omega

/-- The performer back at the opening of a section, with so many repeats to go. -/
def backAt (t : Nat) (shown : Position) (left : Nat) (p : Performer) : Performer :=
  { p with cursor := t, shown := some shown, repeatsLeft := some left }

/-- The last laps of a repeat whose close is reached by `p` on the given way. -/
def laps (t : Nat) (shown : Position) (way : List Performer) (p : Performer) :
    Nat → List (List Performer)
  | 0 => []
  | left + 1 =>
    (p.backAt t shown left ::
      (way.map (recount (some left)) ++ [p.recount (some left)])) :: laps t shown way p left

theorem length_laps (t : Nat) (shown : Position) (way : List Performer) (p : Performer)
    (n : Nat) : (laps t shown way p n).length = n := by
  induction n with
  | zero => rfl
  | succ n ih => simp [laps, ih]

theorem mem_laps {shown : Position} {n : Nat} {lap : List Performer}
    (h : lap ∈ laps t shown way p n) :
    ∃ left, lap = p.backAt t shown left ::
      (way.map (recount (some left)) ++ [p.recount (some left)]) := by
  induction n with
  | zero => exact nomatch h
  | succ n ih =>
    rcases List.mem_cons.mp h with rfl | h
    · exact ⟨n, rfl⟩
    · exact ih h

/-- The passages upon an arrival do not depend on what is counted. -/
theorem flatMap_recount (score : List Segment) (road : Roadmap) (left : Option Nat)
    (l : List Performer) :
    (l.map (recount left)).flatMap (arrivalPassages score road) =
      l.flatMap (arrivalPassages score road) :=
  List.flatMap_map ..

/-- **How a repeat is played** behind its close, which `p` has reached: `way` leads there
from the opening at `t`, and `q` is where the performance goes on. -/
structure PlaysRepeat (score : List Segment) (t times : Nat) (way : List Performer)
    (p : Performer) (laps : List (List Performer)) (q : Performer) : Prop where
  /-- The opening is back in the score. -/
  back : t < p.cursor
  /-- There are as many laps as the sign says. -/
  length_eq : laps.length = times
  /-- The laps are played one after the other. -/
  course : Course (Roadmap.ofScore score) p (p :: laps.flatten) q
  /-- The laps are played whenever the budget allows for them. -/
  arrivals : ∀ budget,
    (p.run (Roadmap.ofScore score) ((p :: laps.flatten).length + budget)).arrivals =
      p :: laps.flatten ++ (q.run (Roadmap.ofScore score) budget).arrivals
  /-- Each lap goes from the opening to the close. -/
  isLap : ∀ lap ∈ laps, IsLap t p.cursor lap
  /-- Each lap has the music of the way on which the close was reached first. -/
  music : ∀ lap ∈ laps, lap.flatMap (arrivalPassages score (Roadmap.ofScore score)) =
    (way ++ [p]).flatMap (arrivalPassages score (Roadmap.ofScore score))
  /-- The close is reached once more than the performance goes back. -/
  visits : ((p :: laps.flatten).map cursor).count p.cursor = times + 1 ∧
    ((p :: laps.flatten).map cursor).count t = times
  /-- The mode and the pass stay the same. -/
  keeps : ∀ a ∈ laps.flatten, a.mode = .firstTime ∧ a.pass = p.pass
  /-- The performance goes on behind the close with nothing in mind. -/
  leaves : q.cursor = p.cursor + 1 ∧ q.repeatStart = none ∧ q.repeatsLeft = none ∧
    q.mode = .firstTime ∧ q.pass = p.pass

/-- **A count that is set is lapped down**: a close at which `n` repeats are left goes
back `n` times, whether they were counted before or are its own number. -/
theorem course_laps {s₁ : Performer} {m : PlacedMark} (hm : road[p.cursor]? = some m)
    (hmode : p.mode = .firstTime) (hkind : m.kind = .repeatBackward times)
    (hstart : p.repeatStart = some t) (hlt : t < p.cursor)
    (hopening : ∀ left, (p.backAt t m.position left).next? road = some (s₁.recount (some left)))
    (hway : Course road s₁ way p) (hglides : ∀ a ∈ way, Glides road a) (n : Nat)
    (left : Option Nat) (hleft : left.getD times = n) :
    Course road (p.recount left) (p.recount left :: (laps t m.position way p n).flatten)
      { p with shown := some m.position, repeatStart := none, repeatsLeft := none,
               cursor := p.cursor + 1 } := by
  induction n generalizing left with
  | zero => exact .single (next?_closing (p := p.recount left) hm hmode hkind hleft)
  | succ n ih =>
    have hback : (p.recount left).next? road = some (p.backAt t m.position n) :=
      next?_goBack (p := p.recount left) hm hmode hkind hstart hleft (Nat.le_of_lt hlt)
    have hlap : Course road (p.backAt t m.position n)
        (p.backAt t m.position n :: way.map (recount (some n))) (p.recount (some n)) :=
      .round (hopening n) (hway.recount hglides (some n))
    have hrest := ih (some n) rfl
    have hcourse := Course.round hback (hlap.append hrest)
    have hflat : (laps t m.position way p (n + 1)).flatten =
        (p.backAt t m.position n :: way.map (recount (some n))) ++
          p.recount (some n) :: (laps t m.position way p n).flatten := by
      simp [laps]
    rw [hflat]
    exact hcourse

/-- The members of a lap glide like the way that it repeats. -/
theorem mem_flatten_laps {shown : Position} {n : Nat} {a : Performer}
    (h : a ∈ (laps t shown way p n).flatten) :
    ∃ left, a = p.backAt t shown left ∨ ∃ b ∈ way ++ [p], a = b.recount (some left) := by
  obtain ⟨lap, hlap, ha⟩ := List.mem_flatten.mp h
  obtain ⟨left, rfl⟩ := mem_laps hlap
  refine ⟨left, ?_⟩
  rcases List.mem_cons.mp ha with rfl | ha
  · exact .inl rfl
  · rcases List.mem_append.mp ha with ha | ha
    · obtain ⟨b, hb, rfl⟩ := List.mem_map.mp ha
      exact .inr ⟨b, List.mem_append_left _ hb, rfl⟩
    · exact .inr ⟨p, List.mem_append_right _ (List.mem_singleton_self p), List.mem_singleton.mp ha⟩

/-- A close that is reached by gliding behind the round from its opening plays its
repeat. -/
theorem playsRepeat_laps (hscore : HasPlaces score) {s₁ : Performer} {m : PlacedMark}
    (hm : (Roadmap.ofScore score)[p.cursor]? = some m) (hkind : m.kind = .repeatBackward times)
    (hmode : p.mode = .firstTime)
    (hstart : p.repeatStart = some t) (hleft : p.repeatsLeft = none) (hs₁ : t < s₁.cursor)
    (hopening : ∀ left, (p.backAt t m.position left).next? (Roadmap.ofScore score) =
      some (s₁.recount (some left)))
    (hway : Course (Roadmap.ofScore score) s₁ way p)
    (hglides : ∀ a ∈ way, Glides (Roadmap.ofScore score) a) :
    PlaysRepeat score t times way p (laps t m.position way p times)
      { p with shown := some m.position, repeatStart := none, repeatsLeft := none,
               cursor := p.cursor + 1 } := by
  obtain ⟨⟨shown, hp⟩, hle, hall⟩ := hway.of_glides hglides
  have hlt : t < p.cursor := Nat.lt_of_lt_of_le hs₁ hle
  have hpass : p.pass = s₁.pass := by
    rw [hp]
  have hlen := length_laps t m.position way p times
  have hisLap : ∀ lap ∈ laps t m.position way p times, IsLap t p.cursor lap := by
    intro lap hlap
    obtain ⟨left, rfl⟩ := mem_laps hlap
    refine ⟨_, _, _, rfl, rfl, rfl, fun a ha => ?_⟩
    obtain ⟨b, hb, rfl⟩ := List.mem_map.mp ha
    exact ⟨Nat.lt_of_lt_of_le hs₁ (hall b hb).1, (hall b hb).2.1⟩
  have hsame : p.recount none = p := by
    unfold recount
    rw [← hleft]
  have hcourse := course_laps hm hmode hkind hstart hlt hopening hway hglides times none rfl
  rw [hsame] at hcourse
  constructor
  case back => exact hlt
  case length_eq => exact hlen
  case course => exact hcourse
  case arrivals => exact fun budget => (hcourse.run budget).1
  case isLap => exact hisLap
  case music =>
    intro lap hlap
    obtain ⟨left, rfl⟩ := mem_laps hlap
    have hinner : way.map (recount (some left)) ++ [p.recount (some left)] =
        (way ++ [p]).map (recount (some left)) := by simp
    rw [List.flatMap_cons, arrivalPassages_eq_nil hscore hm rfl hlt, List.nil_append, hinner,
      flatMap_recount]
  case visits =>
    obtain ⟨hcount, hcount'⟩ := count_flatten_laps hisLap hlt
    have hne : p.cursor ≠ t := Nat.ne_of_gt hlt
    rw [List.map_cons, List.count_cons_self, List.count_cons_of_ne hne, hcount, hcount', hlen]
    exact ⟨rfl, rfl⟩
  case keeps =>
    intro a ha
    obtain ⟨left, rfl | ⟨b, hb, rfl⟩⟩ := mem_flatten_laps ha
    · exact ⟨hmode, rfl⟩
    · rcases List.mem_append.mp hb with hb | hb
      · exact ⟨(hglides b hb).1, (hall b hb).2.2.trans hpass.symm⟩
      · rw [List.mem_singleton.mp hb]
        exact ⟨hmode, rfl⟩
  case leaves => exact ⟨rfl, rfl, rfl, hmode, rfl⟩

/-- **A repeat plays the same music as often as it says.** A performance that comes to a
`:||` with a `||:` in mind and no count under way has been gliding from that `||:`; it
plays its repeat with the music of this way, and goes on behind the sign. -/
theorem repeat_unrolls (hscore : HasPlaces score)
    (h : Course (Roadmap.ofScore score) {} history p) (hmode : p.mode = .firstTime)
    (hkind : (Roadmap.ofScore score).kindAt? p.cursor = some (.repeatBackward times))
    (hstart : p.repeatStart = some t) (hleft : p.repeatsLeft = none) :
    ∃ before s way laps q, history = before ++ s :: way ∧ s.cursor = t ∧
      (∀ a ∈ way, t < a.cursor ∧ a.cursor < p.cursor) ∧
      PlaysRepeat score t times way p laps q := by
  have hbooks : Bookkeeping (Roadmap.ofScore score) p := Reached.bookkeeping ⟨history, h⟩ hmode
  obtain ⟨hlt, -⟩ := hbooks.rest_of_repeatBackward hkind hstart
  -- the way from the `||:` to the `:||`, and the round by which it was entered
  obtain ⟨before, s, way, rfl, hfrom⟩ := h.exists_wayFrom hmode hstart (Nat.ne_of_gt hlt)
  obtain ⟨-, hs⟩ := h.split
  obtain ⟨n, hn, hopen⟩ := Roadmap.exists_mark_of_kindAt? (hbooks.opened t hstart).1
  obtain ⟨m, hm, hclose⟩ := Roadmap.exists_mark_of_kindAt? hkind
  obtain rfl : s.cursor = t := hfrom.cursor_eq
  have hentered := next?_opening hn hfrom.mode_eq hopen
  cases hs with
  | @round _ s₁ _ _ hnext hway =>
    have hs₁ : { s with shown := some n.position, repeatStart := some s.cursor,
                        cursor := s.cursor + 1 } = s₁ :=
      Option.some.inj (hentered.symm.trans hnext)
    obtain ⟨⟨shown, hp⟩, -, hall⟩ := hway.of_glides hfrom.glides
    have hbehind : s.cursor < s₁.cursor := by
      rw [← hs₁]
      exact Nat.lt_succ_self s.cursor
    have hbetween : ∀ a ∈ way, s.cursor < a.cursor ∧ a.cursor < p.cursor :=
      fun a ha => ⟨Nat.lt_of_lt_of_le hbehind (hall a ha).1, (hall a ha).2.1⟩
    -- back at the `||:`, the same round is taken again
    have hopening : ∀ left, (p.backAt s.cursor m.position left).next? (Roadmap.ofScore score) =
        some (s₁.recount (some left)) := by
      intro left
      rw [next?_opening (p := p.backAt s.cursor m.position left) hn hmode hopen, ← hs₁]
      rw [← hs₁] at hp
      have hpass : p.pass = s.pass := by rw [hp]
      have hfollowed : p.followed = s.followed := by rw [hp]
      simp [backAt, recount, hpass, hfollowed, hmode, hfrom.mode_eq]
    exact ⟨before, s, way, _, _, rfl, rfl, hbetween,
      playsRepeat_laps hscore hm hclose hmode hstart hleft hbehind hopening hway hfrom.glides⟩

/-- Two segments between repeat signs, to be played two more times. -/
def twoMoreTimes : List Segment :=
  [{ id := default, marks := [{ kind := .repeatForward, x := .zero }] },
    { id := default, marks := [{ kind := .repeatBackward 2, x := .one }] }]

/-- A performance of two segments with a repeat comes to its close, and plays both of them
twice from there. -/
theorem repeat_unrolls_twoMoreTimes :
    let p : Performer :=
      { cursor := 1, repeatStart := some 0, shown := some { segment := 0, x := .zero } }
    HasPlaces twoMoreTimes ∧ Course (Roadmap.ofScore twoMoreTimes) {} [{}] p ∧
      (Roadmap.ofScore twoMoreTimes).kindAt? p.cursor = some (.repeatBackward 2) ∧
      ∃ before s way laps q, [({} : Performer)] = before ++ s :: way ∧ s.cursor = 0 ∧
        (∀ a ∈ way, 0 < a.cursor ∧ a.cursor < p.cursor) ∧
        PlaysRepeat twoMoreTimes 0 2 way p laps q := by
  have hplaces : HasPlaces twoMoreTimes := by decide
  have hcourse : Course (Roadmap.ofScore twoMoreTimes) {} [{}]
      { cursor := 1, repeatStart := some 0, shown := some { segment := 0, x := .zero } } :=
    .single (by decide)
  exact ⟨hplaces, hcourse, by decide,
    repeat_unrolls hplaces hcourse rfl (by decide) rfl rfl⟩

end Performer

end Playthrough
