import Playthrough.Proofs.Replays
import Playthrough.Proofs.Steps

/-!
# Commands

A D.C. or D.S. is followed at most once, and behind the first one that is followed the whole
rest of the piece is a replay. This module looks at what performers keep in mind of their
commands in the course of a run (`Performer.after`): any number of steps on a roadmap of any
order, those behind the end of the piece included.

- `step_of_replays` and `step_of_not_follows`: a step that follows a command notes its index,
  and no other step notes anything;
- `SameReplay.after`: in a replay, nothing depends on what is kept in mind of repeats and
  endings;
- `commands_followed_once`: the rules of a whole run.
-/

namespace Playthrough

/-- At the index there is a command that leads somewhere: a D.C., or a D.S. for which there is
a segno. -/
def Roadmap.CommandAt (road : Roadmap) (i : Nat) : Prop :=
  road.kindAt? i = some .daCapo ∨
    ∃ label j, road.kindAt? i = some (.dalSegno label) ∧ road.kindAt? j = some (.segno label)

namespace Performer

variable {road : Roadmap} {p q : Performer}

/-! ## Runs of steps -/

/-- The performer after so many steps. Where the piece is over, a step changes nothing. -/
def after (road : Roadmap) : Nat → Performer → Performer
  | 0, p => p
  | n + 1, p => after road n (p.step road).performer

theorem after_add (road : Roadmap) (m n : Nat) (p : Performer) :
    p.after road (m + n) = (p.after road m).after road n := by
  induction m generalizing p with
  | zero => rw [Nat.zero_add]; rfl
  | succ m ih =>
    rw [Nat.succ_add]
    exact ih (p.step road).performer

/-- One more step at the end. -/
theorem after_succ (road : Roadmap) (n : Nat) (p : Performer) :
    p.after road (n + 1) = ((p.after road n).step road).performer := after_add road n 1 p

/-- What every step preserves, a run preserves. -/
theorem after_preserves {I : Performer → Prop} (hstep : ∀ {p}, I p → I (p.step road).performer)
    (hp : I p) (n : Nat) : I (p.after road n) := by
  induction n generalizing p with
  | zero => exact hp
  | succ n ih => exact ih (hstep hp)

/-- A step is a turn, or there is no step to take. -/
theorem step_eq_self_or_turn (road : Roadmap) (p : Performer) :
    (p.step road).performer = p ∨ Turn road p (p.step road).performer := by
  cases hflow : (p.step road).flow with
  | goOn => exact .inr (turn_of_step hflow)
  | stop => exact .inl (performer_of_stop hflow)

/-! ## Following a command -/

/-- The performer is at a command that leads somewhere and was not followed before. -/
def Follows (road : Roadmap) (p : Performer) : Prop :=
  ∃ landing played, Replays road p landing played

theorem Follows.notMem (h : Follows road p) : p.cursor ∉ p.followed := by
  obtain ⟨_, _, hreplay⟩ := h
  cases hreplay with
  | daCapo hkind hnew => exact hnew
  | dalSegno hkind hnew htarget => exact hnew

theorem Follows.commandAt (h : Follows road p) : road.CommandAt p.cursor := by
  obtain ⟨_, _, hreplay⟩ := h
  cases hreplay with
  | daCapo hkind hnew => exact .inl hkind
  | dalSegno hkind hnew htarget =>
    exact .inr ⟨_, _, hkind, Roadmap.kindAt?_of_firstSegno? htarget⟩

/-- A command that is followed leads to its landing, and its own index is noted. -/
theorem step_of_replays {landing : Nat} {played : Option Position}
    (h : Replays road p landing played) :
    (p.step road).performer.cursor = landing ∧ (p.step road).performer.mode = .replaying ∧
      (p.step road).performer.followed = p.cursor :: p.followed := by
  cases h with
  | daCapo hkind hnew =>
    obtain ⟨m, hm, hmark⟩ := Roadmap.exists_mark_of_kindAt? hkind
    rw [step_daCapo hm hmark, atDaCapo, if_neg hnew]
    exact ⟨rfl, rfl, rfl⟩
  | dalSegno hkind hnew htarget =>
    obtain ⟨m, hm, hmark⟩ := Roadmap.exists_mark_of_kindAt? hkind
    rw [step_dalSegno hm hmark, atDalSegno, if_neg hnew, htarget]
    exact ⟨rfl, rfl, rfl⟩

/-- Every other turn leaves the mode and the notes as they are. -/
theorem turn_of_not_follows (hturn : Turn road p q) (hnot : ¬ Follows road p) :
    q.mode = p.mode ∧ q.followed = p.followed := by
  cases hturn with
  | daCapo hkind hnew => exact absurd ⟨_, _, .daCapo hkind hnew⟩ hnot
  | dalSegno hkind hnew htarget => exact absurd ⟨_, _, .dalSegno hkind hnew htarget⟩ hnot
  | _ => exact ⟨rfl, rfl⟩

theorem step_of_not_follows (hnot : ¬ Follows road p) :
    (p.step road).performer.mode = p.mode ∧
      (p.step road).performer.followed = p.followed := by
  rcases step_eq_self_or_turn road p with hstays | hturn
  · rw [hstays]
    exact ⟨rfl, rfl⟩
  · exact turn_of_not_follows hturn hnot

/-- No step strikes out a note. -/
theorem followed_subset_step (road : Roadmap) (p : Performer) :
    p.followed ⊆ (p.step road).performer.followed := by
  by_cases h : Follows road p
  · obtain ⟨_, _, hreplay⟩ := h
    rw [(step_of_replays hreplay).2.2]
    exact List.subset_cons_self _ _
  · rw [(step_of_not_follows h).2]
    exact List.Subset.refl _

/-- Notes are kept for good. -/
theorem followed_subset_after {m n : Nat} (hmn : m ≤ n) (p : Performer) :
    (p.after road m).followed ⊆ (p.after road n).followed := by
  obtain ⟨k, rfl⟩ := Nat.exists_eq_add_of_le hmn
  rw [after_add]
  exact after_preserves (I := fun q => (p.after road m).followed ⊆ q.followed)
    (fun hq => List.Subset.trans hq (followed_subset_step road _)) (List.Subset.refl _) k

/-- A command that is followed in a run is noted, wherever it leads to. -/
theorem after_of_replays {n landing : Nat} {played : Option Position}
    (h : Replays road (p.after road n) landing played) :
    (p.after road (n + 1)).cursor = landing ∧
      (p.after road (n + 1)).followed = (p.after road n).cursor :: (p.after road n).followed := by
  obtain ⟨hcursor, -, hfollowed⟩ := step_of_replays h
  rw [after_succ]
  exact ⟨hcursor, hfollowed⟩

/-- A command that is followed in a run is not followed again. -/
theorem cursor_ne_of_follows {m n : Nat} (hmn : m < n) (h : Follows road (p.after road m))
    (h' : Follows road (p.after road n)) : (p.after road m).cursor ≠ (p.after road n).cursor := by
  intro heq
  obtain ⟨_, _, hreplay⟩ := h
  have hmem : (p.after road m).cursor ∈ (p.after road n).followed := by
    refine followed_subset_after (Nat.succ_le_of_lt hmn) p ?_
    rw [(after_of_replays hreplay).2]
    exact List.mem_cons_self
  exact h'.notMem (heq ▸ hmem)

/-! ## Notes and mode -/

/-- What a performer has noted agrees with its mode and with the roadmap. -/
structure Notes (road : Roadmap) (p : Performer) : Prop where
  /-- A performer is in a replay as soon as there is a note. -/
  mode_iff : p.mode = .firstTime ↔ p.followed = []
  /-- The notes are about commands that lead somewhere. -/
  commandAt : ∀ i ∈ p.followed, road.CommandAt i

theorem Notes.init (road : Roadmap) : Notes road {} where
  mode_iff := by decide
  commandAt _ h := nomatch h

theorem Notes.step (h : Notes road p) : Notes road (p.step road).performer := by
  by_cases hfollows : Follows road p
  · obtain ⟨_, _, hreplay⟩ := hfollows
    obtain ⟨-, hmode, hfollowed⟩ := step_of_replays hreplay
    constructor
    · rw [hmode, hfollowed]
      simp
    · intro i hi
      rw [hfollowed] at hi
      rcases List.mem_cons.mp hi with rfl | hi
      · exact Follows.commandAt ⟨_, _, hreplay⟩
      · exact h.commandAt i hi
  · obtain ⟨hmode, hfollowed⟩ := step_of_not_follows hfollows
    constructor
    · rw [hmode, hfollowed]
      exact h.mode_iff
    · intro i hi
      rw [hfollowed] at hi
      exact h.commandAt i hi

/-- A command that is noted is passed over. -/
theorem Notes.step_of_mem (h : Notes road p) (hold : p.cursor ∈ p.followed) :
    (p.step road).performer = p.advance := by
  rcases h.commandAt _ hold with hkind | ⟨label, _, hkind, -⟩
  · obtain ⟨m, hm, hmark⟩ := Roadmap.exists_mark_of_kindAt? hkind
    rw [step_daCapo hm hmark, atDaCapo, if_pos hold]
  · obtain ⟨m, hm, hmark⟩ := Roadmap.exists_mark_of_kindAt? hkind
    rw [step_dalSegno hm hmark, atDalSegno, if_pos hold]

/-! ## A replay is final -/

/-- The second performer is in a replay, and has the same in mind of repeats and endings as the
first one. -/
structure StaysInReplay (p q : Performer) : Prop where
  mode : q.mode = .replaying
  repeatStart : q.repeatStart = p.repeatStart
  repeatsLeft : q.repeatsLeft = p.repeatsLeft
  pass : q.pass = p.pass

theorem staysInReplay_turn (hturn : Turn road p q) (hmode : p.mode = .replaying) :
    StaysInReplay p q := by
  cases hturn with
  | opening hp | goBack hp | closing hp | passOver hp | skip hp | nextPass hp | lastPass hp =>
    exact nomatch hp.symm.trans hmode
  | daCapo hkind hnew => exact ⟨rfl, rfl, rfl, rfl⟩
  | dalSegno hkind hnew htarget => exact ⟨rfl, rfl, rfl, rfl⟩
  | passCommand hold => exact ⟨hmode, rfl, rfl, rfl⟩
  | replayOver hp hkind hover => exact ⟨hmode, rfl, rfl, rfl⟩
  | toCoda hp hkind htarget => exact ⟨hmode, rfl, rfl, rfl⟩

theorem StaysInReplay.step (h : StaysInReplay p q) : StaysInReplay p (q.step road).performer := by
  rcases step_eq_self_or_turn road q with hstays | hturn
  · rw [hstays]
    exact h
  · have hnext := staysInReplay_turn hturn h.mode
    exact ⟨hnext.mode, hnext.repeatStart.trans h.repeatStart,
      hnext.repeatsLeft.trans h.repeatsLeft, hnext.pass.trans h.pass⟩

/-- A replay lasts to the end of a run. -/
theorem staysInReplay_after {m n : Nat} (hmn : m ≤ n) (hmode : (p.after road m).mode = .replaying) :
    StaysInReplay (p.after road m) (p.after road n) := by
  obtain ⟨k, rfl⟩ := Nat.exists_eq_add_of_le hmn
  rw [after_add]
  exact after_preserves StaysInReplay.step ⟨hmode, rfl, rfl, rfl⟩ k

/-! ## What a replay depends on -/

/-- Two performers in a replay at the same mark, who have shown the same music and followed the
same commands. What they have in mind of repeats and endings may differ. -/
structure SameReplay (p q : Performer) : Prop where
  left : p.mode = .replaying
  right : q.mode = .replaying
  cursor : p.cursor = q.cursor
  shown : p.shown = q.shown
  followed : ∀ i, i ∈ p.followed ↔ i ∈ q.followed

/-- Two reactions that differ in nothing but what is kept in mind of repeats and endings. -/
structure SameReaction (r s : Reaction) : Prop where
  flow : r.flow = s.flow
  warning : r.warning = s.warning
  performer : SameReplay r.performer s.performer

namespace SameReplay

theorem advance (h : SameReplay p q) : SameReplay p.advance q.advance where
  left := h.left
  right := h.right
  cursor := congrArg (· + 1) h.cursor
  shown := h.shown
  followed := h.followed

theorem jumpTo (h : SameReplay p q) (road : Roadmap) (target : Nat) :
    SameReplay (p.jumpTo road target) (q.jumpTo road target) where
  left := h.left
  right := h.right
  cursor := rfl
  shown := by simp only [Performer.jumpTo, h.cursor, h.shown]
  followed := h.followed

theorem restart (h : SameReplay p q) : SameReplay p.restart q.restart where
  left := h.left
  right := h.right
  cursor := rfl
  shown := rfl
  followed := h.followed

theorem follow (h : SameReplay p q) : SameReplay p.follow q.follow where
  left := rfl
  right := rfl
  cursor := h.cursor
  shown := h.shown
  followed i := by
    show i ∈ p.cursor :: p.followed ↔ i ∈ q.cursor :: q.followed
    rw [List.mem_cons, List.mem_cons, h.cursor, h.followed i]

theorem cursor_mem_followed (h : SameReplay p q) :
    p.cursor ∈ p.followed ↔ q.cursor ∈ q.followed := by
  rw [h.followed, h.cursor]

theorem atDaCapo (h : SameReplay p q) : SameReaction p.atDaCapo q.atDaCapo := by
  unfold Performer.atDaCapo
  by_cases hold : p.cursor ∈ p.followed
  · rw [if_pos hold, if_pos (h.cursor_mem_followed.mp hold)]
    exact ⟨rfl, rfl, h.advance⟩
  · rw [if_neg hold, if_neg fun hq => hold (h.cursor_mem_followed.mpr hq)]
    exact ⟨rfl, rfl, h.follow.restart⟩

theorem atDalSegno (h : SameReplay p q) (road : Roadmap) (label : Option String) :
    SameReaction (p.atDalSegno road label) (q.atDalSegno road label) := by
  unfold Performer.atDalSegno
  by_cases hold : p.cursor ∈ p.followed
  · rw [if_pos hold, if_pos (h.cursor_mem_followed.mp hold)]
    exact ⟨rfl, rfl, h.advance⟩
  · rw [if_neg hold, if_neg fun hq => hold (h.cursor_mem_followed.mpr hq)]
    cases road.firstSegno? label with
    | some target => exact ⟨rfl, rfl, h.follow.jumpTo road target⟩
    | none => exact ⟨rfl, rfl, h.advance⟩

theorem stepReplaying (h : SameReplay p q) (road : Roadmap) (kind : MarkKind) :
    SameReaction (p.stepReplaying road kind) (q.stepReplaying road kind) := by
  cases kind with
  | daCapo => exact h.atDaCapo
  | dalSegno label => exact h.atDalSegno road label
  | toCoda label =>
    unfold Performer.stepReplaying
    dsimp only
    cases road.firstCoda? label with
    | some target => exact ⟨rfl, rfl, h.jumpTo road target⟩
    | none => exact ⟨rfl, rfl, h.advance⟩
  | fine => exact ⟨rfl, rfl, h⟩
  | repeatForward | repeatBackward times | volta numbers | finalVoltaEnd
  | segno label | coda label =>
    exact ⟨rfl, rfl, h.advance⟩

/-- **A step of a replay does not look at repeats and endings.** -/
theorem step (h : SameReplay p q) (road : Roadmap) : SameReaction (p.step road) (q.step road) := by
  cases hm : road[p.cursor]? with
  | none =>
    have hm' : road[q.cursor]? = none := h.cursor ▸ hm
    simp only [Performer.step, hm, hm']
    exact ⟨rfl, rfl, h⟩
  | some m =>
    rw [step_of_replaying hm h.left, step_of_replaying (h.cursor ▸ hm) h.right]
    exact h.stepReplaying road m.kind

/-- What two performers in a replay have in common, they have in common after any number of
steps. -/
theorem after (h : SameReplay p q) (road : Roadmap) (n : Nat) :
    SameReplay (p.after road n) (q.after road n) := by
  induction n generalizing p q with
  | zero => exact h
  | succ n ih => exact ih (h.step road).performer

end SameReplay

/-! ## Whole runs -/

/-- The rules for the commands in a run, `run n` being the performer after `n` steps. -/
structure FollowsOnce (road : Roadmap) (run : Nat → Performer) : Prop where
  /-- It is the first time through for as long as no command was followed. -/
  mode_iff : ∀ n, (run n).mode = .firstTime ↔ (run n).followed = []
  /-- Only commands that lead somewhere are among the followed ones. -/
  commandAt : ∀ n, ∀ i ∈ (run n).followed, road.CommandAt i
  /-- A command that is followed is noted by its own index, wherever it leads to. -/
  noted : ∀ n landing played, Replays road (run n) landing played →
    (run (n + 1)).cursor = landing ∧ (run (n + 1)).followed = (run n).cursor :: (run n).followed
  /-- A step that follows no command notes nothing. -/
  notNoted : ∀ n, ¬ Follows road (run n) → (run (n + 1)).followed = (run n).followed
  /-- What was noted once stays noted. -/
  kept : ∀ m n, m ≤ n → (run m).followed ⊆ (run n).followed
  /-- At a command that is noted, the performer only moves on. -/
  passedOver : ∀ n, (run n).cursor ∈ (run n).followed → run (n + 1) = (run n).advance
  /-- No command is followed twice. -/
  once : ∀ m n, m < n → Follows road (run m) → Follows road (run n) →
    (run m).cursor ≠ (run n).cursor
  /-- A replay lasts to the end, and leaves repeats and endings alone. -/
  final : ∀ m n, m ≤ n → (run m).mode = .replaying → StaysInReplay (run m) (run n)

/-- **Commands are followed at most once, and a replay is final.** In a replay, it makes no
difference to what comes what a performer has in mind of repeats and endings. -/
theorem commands_followed_once (road : Roadmap) :
    FollowsOnce road (fun n => ({} : Performer).after road n) ∧
      ∀ p q, SameReplay p q → ∀ n,
        SameReplay (p.after road n) (q.after road n) ∧
          ((p.after road n).step road).flow = ((q.after road n).step road).flow := by
  have hnotes : ∀ n, Notes road (({} : Performer).after road n) :=
    after_preserves Notes.step (.init road)
  constructor
  · constructor
    case mode_iff => exact fun n => (hnotes n).mode_iff
    case commandAt => exact fun n => (hnotes n).commandAt
    case noted => exact fun n landing played hreplay => after_of_replays hreplay
    case notNoted =>
      intro n hnot
      show (({} : Performer).after road (n + 1)).followed = _
      rw [after_succ]
      exact (step_of_not_follows hnot).2
    case kept => exact fun m n hmn => followed_subset_after hmn {}
    case passedOver =>
      intro n hold
      show ({} : Performer).after road (n + 1) = _
      rw [after_succ]
      exact (hnotes n).step_of_mem hold
    case once => exact fun m n hmn => cursor_ne_of_follows hmn
    case final => exact fun m n hmn => staysInReplay_after hmn
  · intro p q h n
    have hafter := h.after road n
    exact ⟨hafter, (hafter.step road).flow⟩

/-- A D.C. al Fine: the D.C. is followed in the second step, and from then on a pass and a count
that were left behind make no difference. -/
theorem commands_followed_once_daCapoAlFine :
    let road := Roadmap.ofScore daCapoAlFine
    let p : Performer := { mode := .replaying, followed := [1] }
    let q : Performer := { p with repeatStart := some 0, repeatsLeft := some 3, pass := 2 }
    Replays road (({} : Performer).after road 1) 0 none ∧ ({} : Performer).after road 2 = p ∧
      FollowsOnce road (fun n => ({} : Performer).after road n) ∧ SameReplay p q ∧
      ∀ n, SameReplay (p.after road n) (q.after road n) := by
  intro road p q
  obtain ⟨honce, hsame⟩ := commands_followed_once road
  have hpq : SameReplay p q := ⟨rfl, rfl, rfl, rfl, fun _ => Iff.rfl⟩
  have hreplay : Replays road (({} : Performer).after road 1) 0 none :=
    .daCapo (by decide) (by decide)
  exact ⟨hreplay, by decide, honce, hpq, fun n => (hsame p q hpq n).1⟩

end Performer

end Playthrough
