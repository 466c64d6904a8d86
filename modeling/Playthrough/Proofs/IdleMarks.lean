import Playthrough.Proofs.Replays
import Playthrough.Proofs.Selections

/-!
# Marks without effect

Some marks of a score can never make a difference: a D.S. without a segno, a To Coda without a
coda, landmarks that nothing leads to, and everything that waits for a replay if there is none.
If such marks are taken out, the performance stays the same music: `perform_keepMarks`.

The performance of the shorter roadmap is followed along that of the whole one. At a mark that
stays both take the same round, under different numbers. At a mark that is taken out the whole
performance only goes on to the next mark, and the music up to there is played in two pieces
where the other performance plays it in one.
-/

namespace Playthrough

namespace Roadmap

variable {road : Roadmap} {i : Nat} {kind : MarkKind}

/-! ## Idle marks -/

/-- The mark at index `i` is of a kind that has no effect there: a command without a landmark, a
landmark without a command or behind another one with its label, or, without any replay, whatever
waits for one. -/
def Idle (road : Roadmap) (i : Nat) : MarkKind → Prop
  | .dalSegno label => road.firstSegno? label = none
  | .toCoda label => road.firstCoda? label = none ∨ road.WithoutReplays
  | .segno label => road.firstSegno? label ≠ some i ∨
      (∀ m ∈ road, m.kind ≠ .dalSegno label) ∨ road.WithoutReplays
  | .coda label => road.firstCoda? label ≠ some i ∨
      (∀ m ∈ road, m.kind ≠ .toCoda label) ∨ road.WithoutReplays
  | .fine => road.WithoutReplays
  | .repeatForward | .repeatBackward _ | .volta _ | .finalVoltaEnd | .daCapo => False

instance (road : Roadmap) (i : Nat) : (kind : MarkKind) → Decidable (road.Idle i kind)
  | .dalSegno _ => inferInstanceAs (Decidable (_ = _))
  | .toCoda _ => inferInstanceAs (Decidable (_ ∨ _))
  | .segno _ => inferInstanceAs (Decidable (_ ∨ _ ∨ _))
  | .coda _ => inferInstanceAs (Decidable (_ ∨ _ ∨ _))
  | .fine => inferInstanceAs (Decidable road.WithoutReplays)
  | .repeatForward | .repeatBackward _ | .volta _ | .finalVoltaEnd | .daCapo =>
    inferInstanceAs (Decidable False)

/-- What starts a replay is not idle. -/
theorem not_idle_of_startsReplay (h : road.startsReplay kind = true) : ¬ road.Idle i kind := by
  intro hidle
  cases kind with
  | dalSegno label =>
    have hnone : road.firstSegno? label = none := hidle
    simp [startsReplay, hnone] at h
  | daCapo => exact hidle
  | _ => cases h

/-- The marks that open and close endings are not idle. -/
theorem not_idle_of_isEndingBoundary (h : kind.isEndingBoundary = true) : ¬ road.Idle i kind := by
  intro hidle
  cases kind with
  | volta numbers | finalVoltaEnd => exact hidle
  | _ => cases h

/-- An idle mark is passed over the first time through. -/
theorem passedOver_of_idle (h : road.Idle i kind) (pass : Nat) :
    road.passedOver pass kind = true := by
  cases kind with
  | dalSegno label => exact Option.isNone_iff_eq_none.mpr h
  | segno label | coda label | toCoda label | fine => rfl
  | _ => exact h.elim

/-- An idle mark does not interrupt a replay. -/
theorem not_interrupts_of_idle (h : road.Idle i kind) (hroad : ¬ road.WithoutReplays)
    (followed : List Nat) : road.interrupts followed i kind = false := by
  cases kind with
  | dalSegno label =>
    have hnone : road.firstSegno? label = none := h
    simp [interrupts, hnone]
  | toCoda label =>
    rcases h with hnone | hwithout
    · simp [interrupts, hnone]
    · exact absurd hwithout hroad
  | segno label | coda label => rfl
  | fine => exact absurd h hroad
  | _ => exact h.elim

/-- The segno of a D.S. is not idle. -/
theorem not_idle_of_firstSegno? {label : Option String} {c : Nat}
    (hkind : road.kindAt? c = some (.dalSegno label)) (htarget : road.firstSegno? label = some i) :
    ¬ road.Idle i (.segno label) := by
  rintro (hother | hnone | hwithout)
  · exact hother htarget
  · obtain ⟨m, hm, hmark⟩ := exists_mark_of_kindAt? hkind
    exact hnone m (List.mem_of_getElem? hm) hmark
  · exact nomatch htarget.symm.trans (hwithout.firstSegno? hkind)

/-- If there are replays, the coda of a To Coda is not idle. -/
theorem not_idle_of_firstCoda? {label : Option String} {c : Nat} (hroad : ¬ road.WithoutReplays)
    (hkind : road.kindAt? c = some (.toCoda label)) (htarget : road.firstCoda? label = some i) :
    ¬ road.Idle i (.coda label) := by
  rintro (hother | hnone | hwithout)
  · exact hother htarget
  · obtain ⟨m, hm, hmark⟩ := exists_mark_of_kindAt? hkind
    exact hnone m (List.mem_of_getElem? hm) hmark
  · exact hroad hwithout

end Roadmap

namespace Performer

variable {road : Roadmap} {p q : Performer} {l rest : List Performer} {m : PlacedMark}

/-! ## Performers at idle marks -/

/-- In a replay there is something that starts one. -/
theorem Reached.not_withoutReplays (h : Reached road p) (hmode : p.mode = .replaying) :
    ¬ road.WithoutReplays :=
  fun hroad => nomatch (h.mode_eq hroad).symm.trans hmode

/-- At an idle mark the performance goes on to the next one. -/
theorem Reached.next?_idle (h : Reached road p) (hm : road[p.cursor]? = some m)
    (hidle : road.Idle p.cursor m.kind) : p.next? road = some (p.playTo m.position).advance := by
  cases hmode : p.mode with
  | firstTime => exact next?_passOver hm hmode (Roadmap.passedOver_of_idle hidle p.pass)
  | replaying =>
    refine next?_straight hm hmode ?_
    rw [Roadmap.interruptsAt, Roadmap.kindAt?_of_mark hm]
    exact Roadmap.not_interrupts_of_idle hidle (h.not_withoutReplays hmode) p.followed

/-- Only what starts a replay is followed. -/
theorem Reached.startsReplay_of_followed (h : Reached road p) :
    ∀ f ∈ p.followed, ∃ kind, road.kindAt? f = some kind ∧ road.startsReplay kind = true := by
  refine h.invariant (I := fun p => ∀ f ∈ p.followed, ∃ kind, road.kindAt? f = some kind ∧
    road.startsReplay kind = true) (fun f hf => nomatch hf) fun {p q} hp hnext => ?_
  obtain ⟨m, -, hturn⟩ := turn_of_next? hnext
  have hadd {kind : MarkKind} (hkind : road.kindAt? p.cursor = some kind)
      (hstarts : road.startsReplay kind = true) : ∀ f ∈ p.cursor :: p.followed,
        ∃ kind, road.kindAt? f = some kind ∧ road.startsReplay kind = true := by
    intro f hf
    rcases List.mem_cons.mp hf with rfl | hf
    · exact ⟨kind, hkind, hstarts⟩
    · exact hp f hf
  cases hturn with
  | daCapo hkind hnew => exact hadd hkind rfl
  | dalSegno hkind hnew htarget => exact hadd hkind (by simp [Roadmap.startsReplay, htarget])
  | _ => exact hp

end Performer

/-! ## The shorter roadmap -/

namespace Selection

variable {L : Selection} {i : Nat} {kind : MarkKind}

/-- Only idle marks are taken out. -/
def DropsIdle (L : Selection) : Prop :=
  ∀ x ∈ L.zipIdx, x.1.2 = false → L.whole.Idle x.2 x.1.1.kind

instance (L : Selection) : Decidable L.DropsIdle :=
  inferInstanceAs (Decidable (∀ x ∈ L.zipIdx, x.1.2 = false → L.whole.Idle x.2 x.1.1.kind))

theorem DropsIdle.idle (h : L.DropsIdle) {m : PlacedMark} (hm : L[i]? = some (m, false)) :
    L.whole.Idle i m.kind :=
  h ((m, false), i) (List.mem_zipIdx_iff_getElem?.mpr hm) rfl

theorem DropsIdle.stays (h : L.DropsIdle) (hkind : L.whole.kindAt? i = some kind)
    (hnot : ¬ L.whole.Idle i kind) : L.Stays i := by
  obtain ⟨m, hm, rfl⟩ := Roadmap.exists_mark_of_kindAt? hkind
  rw [getElem?_whole] at hm
  obtain ⟨⟨m', stays⟩, hx, rfl⟩ := Option.map_eq_some_iff.mp hm
  cases stays with
  | true => exact ⟨m', hx⟩
  | false => exact absurd (h.idle hx) hnot

theorem DropsIdle.keepsEndings (h : L.DropsIdle) : L.KeepsEndings :=
  fun _ _ hkind hboundary => h.stays hkind (Roadmap.not_idle_of_isEndingBoundary hboundary)

end Selection

namespace Performer

variable {L : Selection} {p : Performer}

/-- Jumps lead to marks that stay, or to the end. -/
theorem stays_of_jump {target : Nat} (hidle : L.DropsIdle) (hp : Reached L.whole p)
    (hmove : p.move L.whole = .jump target) : L.Stays target ∨ target = L.whole.length := by
  cases jumpsTo_of_move hp.bookkeeping hmove with
  | opening hkind => exact .inl (hidle.stays hkind fun h => h)
  | boundary hkind htarget =>
    rw [htarget]
    rcases L.whole.nextEndingBoundary_cases p.cursor with ⟨kind, -, hkind, hboundary⟩ | hend
    · exact .inl (hidle.keepsEndings _ _ hkind hboundary)
    · exact .inr hend
  | segno hkind htarget =>
    exact .inl (hidle.stays (Roadmap.kindAt?_of_firstSegno? htarget)
      (Roadmap.not_idle_of_firstSegno? hkind htarget))
  | coda hmode hkind htarget =>
    exact .inl (hidle.stays (Roadmap.kindAt?_of_firstCoda? htarget)
      (Roadmap.not_idle_of_firstCoda? (hp.not_withoutReplays hmode) hkind htarget))

/-- **At a mark that stays, the shorter roadmap reads alike.** -/
theorem readsAlike_kept (hidle : L.DropsIdle) (hp : Reached L.whole p)
    (hstays : L.Stays p.cursor) : ReadsAlike L.number id L.whole L.kept p := by
  constructor
  case kind => exact Selection.kindAt?_kept hstays
  case position => rw [Option.map_id, id_eq]; exact Selection.positionAt?_kept hstays
  case next => exact Selection.number_succ_of_stays hstays
  case followed =>
    intro hmem
    obtain ⟨f, hf, heq⟩ := List.mem_map.mp hmem
    obtain ⟨kind, hkind, hstarts⟩ := hp.startsReplay_of_followed f hf
    -- what was followed has stayed, and so has a number of its own
    have hfstays := hidle.stays hkind (Roadmap.not_idle_of_startsReplay hstarts)
    exact Selection.eq_of_number_eq hfstays hstays heq ▸ hf
  case segno =>
    intro label hkind
    exact Selection.findIdx?_kept _ fun i hi =>
      hidle.stays (Roadmap.kindAt?_of_firstSegno? hi) (Roadmap.not_idle_of_firstSegno? hkind hi)
  case coda =>
    intro hmode label hkind
    exact Selection.findIdx?_kept _ fun i hi =>
      hidle.stays (Roadmap.kindAt?_of_firstCoda? hi)
        (Roadmap.not_idle_of_firstCoda? (hp.not_withoutReplays hmode) hkind hi)
  case boundary =>
    exact fun _ _ _ => Selection.nextEndingBoundary_kept hidle.keepsEndings hstays
  case passes =>
    exact fun _ _ t _ => Selection.highestEnding_kept hidle.keepsEndings hstays t
  case ahead => exact fun _ _ => Selection.number_lt_iff hstays
  case landing =>
    intro target hmove _
    rw [Option.map_id, id_eq]
    rcases stays_of_jump hidle hp hmove with htarget | rfl
    · exact Selection.positionAt?_kept htarget
    · have hend : L.number L.whole.length = L.kept.length :=
        Selection.number_of_length_le (Nat.le_of_eq (Selection.length_whole L).symm)
      simp [Roadmap.positionAt?, hend]
  case top => exact fun _ => Selection.number_zero L

/-! ## Performances of both roadmaps -/

/-- The second score is the first one without some marks that are idle. -/
structure Shortens (L : Selection) (score score' : List Segment) : Prop where
  whole : L.whole = Roadmap.ofScore score
  kept : L.kept = Roadmap.ofScore score'
  length : score'.length = score.length
  idle : L.DropsIdle

section Music

variable {score score' : List Segment} {q a : Performer} {l rest : List Performer}
  {shown : Option Position} {i : Nat}

theorem Shortens.readsAlike (h : Shortens L score score') (hp : Reached (Roadmap.ofScore score) p)
    (hstays : L.Stays p.cursor) :
    ReadsAlike L.number id (Roadmap.ofScore score) (Roadmap.ofScore score') p := by
  rw [← h.whole] at hp ⊢
  rw [← h.kept]
  exact readsAlike_kept h.idle hp hstays

/-- A mark stays, or it is idle. -/
theorem Shortens.stays_or_out (h : Shortens L score score')
    (hin : i < (Roadmap.ofScore score).length) :
    L.Stays i ∨ ∃ m, (Roadmap.ofScore score)[i]? = some m ∧ L[i]? = some (m, false) ∧
      (Roadmap.ofScore score).Idle i m.kind := by
  rw [← h.whole] at hin ⊢
  obtain ⟨⟨m, stays⟩, hx⟩ : ∃ x, L[i]? = some x :=
    ⟨_, List.getElem?_eq_getElem (Selection.length_whole L ▸ hin)⟩
  cases stays with
  | true => exact .inl ⟨m, hx⟩
  | false => exact .inr ⟨m, by rw [Selection.getElem?_whole, hx]; rfl, hx, h.idle.idle hx⟩

theorem showing_renumber_id {number : Nat → Nat} (p : Performer) :
    (p.renumber number id).showing p.shown = p.renumber number id := by
  simp [renumber, showing]

/-- Behind the last mark there is no mark left in either roadmap. -/
theorem Shortens.number_eq_length (h : Shortens L score score')
    (hend : (Roadmap.ofScore score).length ≤ i) :
    L.number i = (Roadmap.ofScore score').length := by
  rw [← h.whole, Selection.length_whole] at hend
  rw [Selection.number_of_length_le hend, h.kept]

/-- The music leads to the same place. -/
theorem Shortens.goalAt_number (h : Shortens L score score')
    (hi : L.Stays i ∨ (Roadmap.ofScore score).length ≤ i) :
    goalAt score' (L.number i) = goalAt score i := by
  rcases hi with hstays | hend
  · rw [goalAt, goalAt, ← h.kept, ← h.whole, Selection.positionAt?_kept hstays, h.length]
  · rw [goalAt_of_length_le (Nat.le_of_eq (h.number_eq_length hend).symm), goalAt_of_length_le hend,
      h.length]

/-- What is shown after a round is a position inside of the score. -/
theorem inside_shown_of_next? (hscore : MarksInside score)
    (hnext : p.next? (Roadmap.ofScore score) = some q) : (q.shown.getD .beginning).Inside := by
  rcases shown_cases_of_next? hnext with ⟨-, hshown⟩ | ⟨i, m, hm, hshown⟩
  · rw [hshown]
    exact Position.inside_beginning
  · rw [hshown, Option.getD_some, ← goalAt_of_mark hm]
    exact inside_goalAt hscore i

/-- An idle mark is not reached from the right: no jump leads there. -/
theorem Shortens.shown_le (h : Shortens L score score') (hscore : MarksInside score)
    (hp : Reached (Roadmap.ofScore score) p) (hnext : p.next? (Roadmap.ofScore score) = some q)
    {m : PlacedMark} (hout : L[q.cursor]? = some (m, false)) :
    q.shown.getD .beginning ≤ goalAt score q.cursor := by
  obtain ⟨n, hn, hmakes⟩ := makes_of_next? hnext
  cases hmove : p.move (Roadmap.ofScore score) with
  | advance =>
    rw [hmove] at hmakes
    obtain ⟨-, hcursor, hshown⟩ := hmakes
    have hcursor : q.cursor = p.cursor + 1 := hcursor
    have hshown : q.shown = some n.position := hshown
    rw [hshown, hcursor, Option.getD_some, ← goalAt_of_mark hn]
    exact goalAt_le hscore (Nat.le_succ _)
  | jump target =>
    rw [hmove] at hmakes
    have hcursor : q.cursor = target := hmakes.2.1
    rw [hcursor] at hout
    rw [← h.whole] at hp hmove
    rcases stays_of_jump h.idle hp hmove with ⟨m', hm'⟩ | rfl
    · exact nomatch hm'.symm.trans hout
    · have hlt := (List.getElem?_eq_some_iff.mp hout).1
      exact absurd (Selection.length_whole L) (Nat.ne_of_lt hlt)
  | daCapo =>
    rw [hmove] at hmakes
    have hshown : q.shown = none := hmakes.2.2
    rw [hshown]
    exact Position.beginning_le (inside_goalAt hscore _)
  | stop =>
    rw [hmove] at hmakes
    cases hmakes

/-- In front of a mark that stays, or of the end, both performances have the same music ahead. -/
theorem Shortens.sameMusic_ahead (h : Shortens L score score') (hscore : MarksInside score)
    (hp : L.Stays p.cursor ∨ (Roadmap.ofScore score).length ≤ p.cursor)
    (hinside : (shown.getD .beginning).Inside) :
    SameMusic
      (((p.renumber L.number id).showing shown).musicAhead score' (Roadmap.ofScore score'))
      (Passage.between score shown (goalAt score p.cursor)) := by
  have hgoal : goalAt score' ((p.renumber L.number id).showing shown).cursor =
      goalAt score p.cursor := h.goalAt_number hp
  rw [musicAhead_eq, hgoal]
  exact sameMusic_of_length h.length hinside (inside_goalAt hscore _)

/-- **The performance of the shorter roadmap** is the same music, wherever the music has been
shown up to before. -/
theorem Shortens.exists_course (h : Shortens L score score') (hscore : MarksInside score)
    (hcourse : Course (Roadmap.ofScore score) p l a) (hend : a.next? (Roadmap.ofScore score) = none)
    (hp : Reached (Roadmap.ofScore score) p) (hrest : l ++ [a] = p :: rest)
    (hinside : (shown.getD .beginning).Inside)
    (hshown : ∀ m, L[p.cursor]? = some (m, false) → shown.getD .beginning ≤ goalAt score p.cursor) :
    ∃ l' b, Course (Roadmap.ofScore score') ((p.renumber L.number id).showing shown) l' b ∧
      b.next? (Roadmap.ofScore score') = none ∧
      SameMusic ((l' ++ [b]).flatMap (musicAhead score' (Roadmap.ofScore score')))
        (Passage.between score shown (goalAt score p.cursor) ++
          rest.flatMap (musicAhead score (Roadmap.ofScore score))) := by
  induction hcourse generalizing shown rest with
  | refl p =>
    obtain rfl : rest = [] := by simpa using hrest
    have hwhere : L.Stays p.cursor ∨ (Roadmap.ofScore score).length ≤ p.cursor := by
      rcases Nat.lt_or_ge p.cursor (Roadmap.ofScore score).length with hin | hover
      · rcases h.stays_or_out hin with hstays | ⟨m, hm, -, hidle⟩
        · exact .inl hstays
        · exact nomatch hend.symm.trans (hp.next?_idle hm hidle)
      · exact .inr hover
    refine ⟨[], _, .refl _, ?_, ?_⟩
    · rcases Nat.lt_or_ge p.cursor (Roadmap.ofScore score).length with hin | hover
      · have hstays := hwhere.resolve_right (Nat.not_le_of_lt hin)
        rw [(h.readsAlike hp hstays).next?_renumber hin shown, hend]
        rfl
      · exact next?_eq_none_of_length_le (Nat.le_of_eq (h.number_eq_length hover).symm)
    · simpa using h.sameMusic_ahead hscore hwhere hinside
  | @round p p' a l hnext hcourse ih =>
    obtain ⟨rest', hrest'⟩ := hcourse.exists_cons
    obtain rfl : rest = p' :: rest' := by
      rw [List.cons_append, hrest'] at hrest
      exact (List.cons.inj hrest).2.symm
    have hin := cursor_lt_of_next? hnext
    rcases h.stays_or_out hin with hstays | ⟨m, hm, hout, hidle⟩
    · -- both take the same round
      have hround := (h.readsAlike hp hstays).next?_renumber hin shown
      rw [hnext, Option.map_some, ← showing_renumber_id p'] at hround
      obtain ⟨l', b, hcourse', hb, hmusic⟩ := ih hend (hp.next hnext) hrest'
        (inside_shown_of_next? hscore hnext) fun m hout => h.shown_le hscore hp hnext hout
      refine ⟨_, b, .round hround hcourse', hb, ?_⟩
      rw [List.cons_append, List.flatMap_cons, List.flatMap_cons, musicAhead_eq score p']
      exact (h.sameMusic_ahead hscore (.inl hstays) hinside).append hmusic
    · -- the other performance is already in front of the next mark
      obtain rfl := Option.some.inj (hnext.symm.trans (hp.next?_idle hm hidle))
      obtain ⟨l', b, hcourse', hb, hmusic⟩ := ih hend (hp.next hnext) hrest' hinside
        fun _ _ => Position.le_trans (hshown m hout) (goalAt_le hscore (Nat.le_succ _))
      have hnumber : L.number (p.cursor + 1) = L.number p.cursor :=
        Selection.number_succ_of_not_stays fun ⟨m', hm'⟩ => nomatch hm'.symm.trans hout
      have hsame : ((p.playTo m.position).advance.renumber L.number id).showing shown =
          (p.renumber L.number id).showing shown := by
        simp only [renumber, showing, playTo, advance, hnumber]
      rw [hsame] at hcourse'
      refine ⟨l', b, hcourse', hb, hmusic.trans ?_⟩
      have hcut := sameMusic_goalAt hscore (Nat.le_succ p.cursor) hinside (hshown m hout)
      rw [List.flatMap_cons, musicAhead_eq, ← List.append_assoc]
      refine (SameMusic.symm ?_).append (.refl _)
      rw [goalAt_of_mark hm] at hcut ⊢
      exact hcut

end Music

end Performer

open Performer

/-- **Marks without effect can be taken out**: the performance stays the same music. -/
theorem perform_keepMarks {score : List Segment} {stays : Nat → Nat → Bool}
    {settings settings' : Settings} (hscore : MarksInside score)
    (hidle : (Selection.ofScore stays score).DropsIdle)
    (hsettled : Warning.unsettled ∉ (perform settings score).warnings)
    (hsettled' : Warning.unsettled ∉ (perform settings' (keepMarks stays score)).warnings) :
    SameMusic (perform settings' (keepMarks stays score)).passages
      (perform settings score).passages := by
  by_cases hne : score = []
  · subst hne
    exact .refl _
  have hlength := length_keepMarks stays score
  have hne' : keepMarks stays score ≠ [] := by
    intro hnil
    rw [hnil] at hlength
    exact hne (List.length_eq_zero_iff.mp hlength.symm)
  have hshort : Shortens (Selection.ofScore stays score) score (keepMarks stays score) :=
    ⟨Selection.whole_ofScore stays score, Selection.kept_ofScore stays hscore.hasPlaces, hlength,
      hidle⟩
  obtain ⟨l, a, hcourse, hend, -⟩ := exists_course_of_settled hsettled hne
  obtain ⟨rest, hrest⟩ := hcourse.exists_cons
  have hinside : ((none : Option Position).getD .beginning).Inside := Position.inside_beginning
  obtain ⟨l', b, hcourse', hend', hmusic⟩ := hshort.exists_course hscore hcourse hend
    ⟨[], .refl _⟩ hrest hinside fun _ _ => Position.beginning_le (inside_goalAt hscore _)
  have hbegin : (({} : Performer).renumber (Selection.ofScore stays score).number id).showing none =
      {} := rfl
  rw [hbegin] at hcourse'
  rw [passages_of_course hsettled' hne' hcourse' hend',
    passages_of_course hsettled hne hcourse hend,
    hrest, List.flatMap_cons, musicAhead_eq]
  exact hmusic

/-- A repeated segment with a Fine in the middle, and no D.C. or D.S. to come back to it. -/
def fineWithoutReplay : List Segment :=
  [{ id := default, marks := [{ kind := .repeatForward, x := .zero },
    { kind := .fine, x := { negative := false, magnitude := 0x3fe0000000000000 } },
    { kind := .repeatBackward 1, x := .one }] }]

/-- Without the Fine, the repeated segment is not cut in the middle. -/
theorem perform_keepMarks_fineWithoutReplay :
    let stays : Nat → Nat → Bool := fun _ i => decide (i ≠ 1)
    MarksInside fineWithoutReplay ∧ (Selection.ofScore stays fineWithoutReplay).DropsIdle ∧
      Warning.unsettled ∉ (perform {} fineWithoutReplay).warnings ∧
      Warning.unsettled ∉ (perform {} (keepMarks stays fineWithoutReplay)).warnings ∧
      SameMusic (perform {} (keepMarks stays fineWithoutReplay)).passages
        (perform {} fineWithoutReplay).passages := by
  intro stays
  have hscore : MarksInside fineWithoutReplay := by decide
  have hidle : (Selection.ofScore stays fineWithoutReplay).DropsIdle := by decide
  have hsettled : Warning.unsettled ∉ (perform {} fineWithoutReplay).warnings := by decide
  have hsettled' :
      Warning.unsettled ∉ (perform {} (keepMarks stays fineWithoutReplay)).warnings := by
    decide
  exact ⟨hscore, hidle, hsettled, hsettled',
    perform_keepMarks hscore hidle hsettled hsettled'⟩

example :
    (perform {} fineWithoutReplay).passages.length = 4 ∧
      (perform {} (keepMarks (fun _ i => decide (i ≠ 1)) fineWithoutReplay)).passages.length =
        2 := by
  decide

end Playthrough
