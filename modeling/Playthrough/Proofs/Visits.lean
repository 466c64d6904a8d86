import Mathlib.Algebra.Order.BigOperators.Group.Finset
import Playthrough.Proofs.Sections

/-!
# How often a mark is visited

Repeats, endings, D.C. and D.S. all lead back, and still no mark is visited more often
than once for each pass through the endings, once for each repeat of one `:||`, and once
for each D.C. and D.S. (`Roadmap.visitBound`), provided that codas are ahead of the marks
that lead to them. The three are added, not multiplied.

For one mark, `Performer.potential` is the number of visits that a performer still owes to
it. It consists of

- the commands that were not followed yet, each of which starts a replay, and a replay
  comes by the mark at most once;
- the visits of the current leg (`visitsDue`). What is left of the passes and of the
  repeats counts only once the last close of endings in front of the mark is passed, since
  there both begin anew.

`potential_turn` shows that no turn raises the potential, and that a visit lowers it;
`Course.count_le` and `perform_settles` are the consequences for whole performances.
-/

namespace Playthrough

namespace MarkKind

/-- How often a `:||` goes back; not at all for every other kind. -/
def repeats : MarkKind → Nat
  | repeatBackward times => times
  | _ => 0

/-- The kinds that start a replay. -/
def isCommand : MarkKind → Bool
  | daCapo => true
  | dalSegno _ => true
  | _ => false

end MarkKind

namespace Roadmap

variable {road : Roadmap} {i j k : Nat} {kind : MarkKind}

/-- The highest number of repeats of a `:||`, zero without one. -/
def highestRepeat (road : Roadmap) : Nat := (road.map fun m => m.kind.repeats).foldl max 0

/-- The number of D.C. and D.S. marks. -/
def commands (road : Roadmap) : Nat := road.countP fun m => m.kind.isCommand

/-- The most visits of a mark. -/
def visitBound (road : Roadmap) : Nat := road.highestVolta + road.highestRepeat + road.commands

/-- Each To Coda that has a coda leads ahead. -/
def CodasAhead (road : Roadmap) : Prop :=
  ∀ i label target, road.kindAt? i = some (.toCoda label) →
    road.firstCoda? label = some target → i < target

theorem times_le_highestRepeat {times : Nat}
    (hkind : road.kindAt? i = some (.repeatBackward times)) : times ≤ road.highestRepeat := by
  obtain ⟨m, hm, hkind⟩ := exists_mark_of_kindAt? hkind
  refine le_foldl_max (List.mem_map.mpr ⟨m, List.mem_of_getElem? hm, ?_⟩)
  rw [hkind]
  rfl

/-! ## Commands that were not followed -/

/-- The number of commands that are not among the followed ones. -/
def newCommands (road : Roadmap) (followed : List Nat) : Nat :=
  road.zipIdx.countP fun x => x.1.kind.isCommand && decide (x.2 ∉ followed)

theorem newCommands_nil (road : Roadmap) : road.newCommands [] = road.commands := by
  have hfst : road.zipIdx.map Prod.fst = road := List.zipIdx_map_fst 0 road
  unfold newCommands commands
  conv_rhs => rw [← hfst, List.countP_map]
  simp [Function.comp_def]

/-- To follow a command leaves one command less. -/
theorem newCommands_cons (hkind : road.kindAt? i = some kind) (hcommand : kind.isCommand = true)
    {followed : List Nat} (hnew : i ∉ followed) :
    road.newCommands (i :: followed) + 1 ≤ road.newCommands followed := by
  obtain ⟨m, hm, rfl⟩ := exists_mark_of_kindAt? hkind
  have hmem : (m, i) ∈ road.zipIdx := List.mk_mem_zipIdx_iff_getElem?.mpr hm
  unfold newCommands
  -- the command itself is counted apart from all others
  rw [List.countP_eq_countP_filter_add road.zipIdx
    (fun x => x.1.kind.isCommand && decide (x.2 ∉ followed)) fun x => decide (x.2 ≠ i)]
  have hothers : (road.zipIdx.filter fun x => decide (x.2 ≠ i)).countP
        (fun x => x.1.kind.isCommand && decide (x.2 ∉ followed)) =
      road.zipIdx.countP fun x => x.1.kind.isCommand && decide (x.2 ∉ i :: followed) := by
    rw [List.countP_filter]
    refine List.countP_congr fun x _ => ?_
    simp only [List.mem_cons, not_or, Bool.and_eq_true, decide_eq_true_eq]
    tauto
  rw [hothers]
  refine Nat.add_le_add_left (List.countP_pos_iff.mpr ⟨(m, i), ?_, ?_⟩) _
  · exact List.mem_filter.mpr ⟨hmem, by simp⟩
  · simp [hcommand, hnew]

/-! ## Closes in front of a mark -/

/-- A close of endings stands at `first` or behind, and in front of `last`. -/
def ClosesIn (road : Roadmap) (first last : Nat) : Prop :=
  ∃ f, f < last ∧ first ≤ f ∧ road.kindAt? f = some .finalVoltaEnd

instance (road : Roadmap) (first last : Nat) : Decidable (road.ClosesIn first last) :=
  inferInstanceAs (Decidable (∃ f, f < last ∧ first ≤ f ∧ road.kindAt? f = some .finalVoltaEnd))

/-- A stretch without closes does not matter. -/
theorem closesIn_iff (hij : i ≤ j)
    (hnone : ∀ f, i ≤ f → f < j → road.kindAt? f ≠ some .finalVoltaEnd) :
    road.ClosesIn i k ↔ road.ClosesIn j k := by
  constructor
  · rintro ⟨f, hfk, hif, hf⟩
    refine ⟨f, hfk, Nat.le_of_not_lt fun hfj => ?_, hf⟩
    exact hnone f hif hfj hf
  · rintro ⟨f, hfk, hjf, hf⟩
    exact ⟨f, hfk, Nat.le_trans hij hjf, hf⟩

theorem not_closesIn (hkj : k ≤ j)
    (hnone : ∀ f, i ≤ f → f < j → road.kindAt? f ≠ some .finalVoltaEnd) :
    ¬ road.ClosesIn i k := by
  rintro ⟨f, hfk, hif, hf⟩
  exact hnone f hif (Nat.lt_of_lt_of_le hfk hkj) hf

/-- One mark of another kind is such a stretch. -/
theorem ne_finalVoltaEnd_of_kindAt? (hkind : road.kindAt? i = some kind)
    (hne : kind ≠ .finalVoltaEnd) (f : Nat) (hle : i ≤ f) (hlt : f < i + 1) :
    road.kindAt? f ≠ some .finalVoltaEnd := by
  obtain rfl : i = f := Nat.le_antisymm hle (Nat.le_of_lt_succ hlt)
  rw [hkind]
  simpa using hne

theorem not_closesIn_self (road : Roadmap) (i : Nat) : ¬ road.ClosesIn i i := by
  rintro ⟨f, hfi, hif, -⟩
  omega

end Roadmap

namespace Performer

variable {road : Roadmap} {p q : Performer} {l : List Performer} {i t : Nat}

/-! ## Visits that are due -/

/-- How often a `:||` behind the mark `i` may still go back in front of it: as often as
the count under way says, or else as often as any `:||` does. -/
def repeatsDue (road : Roadmap) (i : Nat) (p : Performer) : Nat :=
  match p.repeatStart, p.repeatsLeft with
  | some t, some left => if i ≤ road.rest p.pass (t + 1) then left else road.highestRepeat
  | _, _ => road.highestRepeat

/-- How often the performer may still go back from behind the mark `i`. -/
def roundsDue (road : Roadmap) (i : Nat) (p : Performer) : Nat :=
  road.highestVolta - p.pass + repeatsDue road i p

/-- The visits of the mark `i` before another command is followed. -/
def visitsDue (road : Roadmap) (i : Nat) (p : Performer) : Nat :=
  match p.mode with
  | .replaying => if p.cursor ≤ i then 1 else 0
  | .firstTime =>
    if p.cursor ≤ i then
      if road.ClosesIn p.cursor i then road.highestVolta + road.highestRepeat
      else 1 + roundsDue road i p
    else if p.repeatStart.any fun t => decide (t ≤ i) then roundsDue road i p
    else 0

/-- All visits of the mark `i` that may be to come. -/
def potential (road : Roadmap) (i : Nat) (p : Performer) : Nat :=
  road.newCommands p.followed + visitsDue road i p

theorem repeatsDue_of_repeatsLeft (h : p.repeatsLeft = none) :
    repeatsDue road i p = road.highestRepeat := by
  unfold repeatsDue
  rw [h]
  split
  · rename_i hnone
    exact nomatch hnone
  · rfl

theorem repeatsDue_of_repeatStart (h : p.repeatStart = none) :
    repeatsDue road i p = road.highestRepeat := by
  unfold repeatsDue
  rw [h]

theorem repeatsDue_of_counting {left : Nat} (hstart : p.repeatStart = some t)
    (hleft : p.repeatsLeft = some left) (hi : i ≤ road.rest p.pass (t + 1)) :
    repeatsDue road i p = left := by
  simp [repeatsDue, hstart, hleft, hi]

/-- A count has no part in what is behind its `:||`. -/
theorem repeatsDue_of_rest_lt (hstart : p.repeatStart = some t)
    (hi : road.rest p.pass (t + 1) < i) : repeatsDue road i p = road.highestRepeat := by
  cases hleft : p.repeatsLeft with
  | none => exact repeatsDue_of_repeatsLeft hleft
  | some left => simp [repeatsDue, hstart, hleft, Nat.not_le.mpr hi]

section FirstTime

variable (hmode : p.mode = .firstTime)
include hmode

theorem visitsDue_of_closesIn (hle : p.cursor ≤ i) (h : road.ClosesIn p.cursor i) :
    visitsDue road i p = road.highestVolta + road.highestRepeat := by
  simp [visitsDue, hmode, hle, h]

theorem visitsDue_of_le (hle : p.cursor ≤ i) (h : ¬ road.ClosesIn p.cursor i) :
    visitsDue road i p = 1 + roundsDue road i p := by
  simp [visitsDue, hmode, hle, h]

theorem visitsDue_of_repeatStart (hlt : i < p.cursor) (hstart : p.repeatStart = some t)
    (ht : t ≤ i) : visitsDue road i p = roundsDue road i p := by
  simp [visitsDue, hmode, Nat.not_le.mpr hlt, hstart, ht]

theorem visitsDue_eq_zero (hlt : i < p.cursor) (h : ∀ t, p.repeatStart = some t → i < t) :
    visitsDue road i p = 0 := by
  have hany : (p.repeatStart.any fun t => decide (t ≤ i)) = false := by
    cases hstart : p.repeatStart with
    | none => rfl
    | some t => simpa using h t hstart
  simp [visitsDue, hmode, Nat.not_le.mpr hlt, hany]

end FirstTime

theorem visitsDue_of_replaying (hmode : p.mode = .replaying) :
    visitsDue road i p = if p.cursor ≤ i then 1 else 0 := by
  simp [visitsDue, hmode]

/-- A mark that is not passed is still to be visited. -/
theorem one_le_visitsDue (hle : p.cursor ≤ i) : 1 ≤ visitsDue road i p := by
  cases hmode : p.mode with
  | firstTime =>
    by_cases hclose : road.ClosesIn p.cursor i
    · rw [visitsDue_of_closesIn hmode hle hclose]
      have := road.one_le_highestVolta
      omega
    · rw [visitsDue_of_le hmode hle hclose]
      omega
  | replaying => rw [visitsDue_of_replaying hmode, if_pos hle]

/-- At the beginning all visits are due. -/
theorem potential_init (road : Roadmap) (i : Nat) :
    potential road i {} = road.visitBound := by
  have hone := road.one_le_highestVolta
  have hdue : visitsDue road i {} = road.highestVolta + road.highestRepeat := by
    by_cases hclose : road.ClosesIn 0 i
    · exact visitsDue_of_closesIn rfl (Nat.zero_le i) hclose
    · rw [visitsDue_of_le rfl (Nat.zero_le i) hclose, roundsDue, repeatsDue_of_repeatStart rfl]
      show 1 + (road.highestVolta - 1 + road.highestRepeat) = _
      omega
  unfold potential Roadmap.visitBound
  rw [hdue, show ({} : Performer).followed = [] from rfl, Roadmap.newCommands_nil]
  omega

/-! ## Turns and the visits that are due -/

/-- One for a visit of the mark `i`. -/
def visit (i : Nat) (p : Performer) : Nat := if p.cursor = i then 1 else 0

theorem visit_le_visitsDue (road : Roadmap) (i : Nat) (p : Performer) :
    visit i p ≤ visitsDue road i p := by
  unfold visit
  split
  · rename_i heq
    exact one_le_visitsDue (Nat.le_of_eq heq)
  · exact Nat.zero_le _

theorem visit_eq_zero (h : p.cursor ≠ i) : visit i p = 0 := if_neg h

/-- A turn ahead that passes no close and starts no pass. The last two hypotheses say what
becomes of the repeats: none are added for a mark ahead, nor for one between the `||:` in
mind and the performer, who had no other one in mind if the mark was passed before. -/
theorem visitsDue_ahead (hp : p.mode = .firstTime) (hq : q.mode = .firstTime)
    (hlt : p.cursor < q.cursor)
    (hnone : ∀ f, p.cursor ≤ f → f < q.cursor → road.kindAt? f ≠ some .finalVoltaEnd)
    (hpass : q.pass = p.pass)
    (hdue : p.cursor < i → repeatsDue road i q ≤ repeatsDue road i p)
    (hstart : ∀ t, q.repeatStart = some t → t ≤ i →
      repeatsDue road i q ≤ repeatsDue road i p ∧ (p.cursor ≤ i ∨ p.repeatStart = some t)) :
    visit i p + visitsDue road i q ≤ visitsDue road i p := by
  have hrounds (h : repeatsDue road i q ≤ repeatsDue road i p) :
      roundsDue road i q ≤ roundsDue road i p := by
    unfold roundsDue
    rw [hpass]
    exact Nat.add_le_add_left h _
  have hone : visit i p ≤ 1 := by
    unfold visit
    split <;> omega
  rcases Nat.lt_or_ge i q.cursor with hiq | hqi
  · -- the mark is behind now: only the `||:` in mind may lead back in front of it
    by_cases h : ∃ t, q.repeatStart = some t ∧ t ≤ i
    · obtain ⟨t, hqt, ht⟩ := h
      obtain ⟨hle, hor⟩ := hstart t hqt ht
      rw [visitsDue_of_repeatStart hq hiq hqt ht]
      rcases Nat.lt_or_ge i p.cursor with hip | hpi
      · have hpt : p.repeatStart = some t := hor.resolve_left (Nat.not_le.mpr hip)
        rw [visitsDue_of_repeatStart hp hip hpt ht, visit_eq_zero (Nat.ne_of_gt hip), Nat.zero_add]
        exact hrounds hle
      · rw [visitsDue_of_le hp hpi (Roadmap.not_closesIn (Nat.le_of_lt hiq) hnone)]
        exact Nat.add_le_add hone (hrounds hle)
    · have hzero : visitsDue road i q = 0 := by
        refine visitsDue_eq_zero hq hiq fun t ht => Nat.lt_of_not_le fun hti => ?_
        exact h ⟨t, ht, hti⟩
      rw [hzero]
      exact visit_le_visitsDue road i p
  · -- the mark is still ahead, behind the same closes
    have hpi : p.cursor < i := Nat.lt_of_lt_of_le hlt hqi
    rw [visit_eq_zero (Nat.ne_of_lt hpi), Nat.zero_add]
    by_cases hclose : road.ClosesIn p.cursor i
    · rw [visitsDue_of_closesIn hp (Nat.le_of_lt hpi) hclose]
      rw [Roadmap.closesIn_iff (Nat.le_of_lt hlt) hnone] at hclose
      rw [visitsDue_of_closesIn hq hqi hclose]
    · rw [visitsDue_of_le hp (Nat.le_of_lt hpi) hclose]
      rw [Roadmap.closesIn_iff (Nat.le_of_lt hlt) hnone] at hclose
      rw [visitsDue_of_le hq hqi hclose]
      exact Nat.add_le_add_left (hrounds (hdue hpi)) 1

/-- A turn back to the `||:` in mind, from where the glide from it has come to rest. It
uses up a round for every mark on the way, and none for a mark ahead. -/
theorem visitsDue_back (hp : p.mode = .firstTime) (hq : q.mode = .firstTime)
    (hstart : p.repeatStart = some t) (hqstart : q.repeatStart = some t) (hcursor : q.cursor = t)
    (hopen : road.kindAt? t = some .repeatForward) (hlt : t < p.cursor)
    (hrest : road.rest p.pass (t + 1) = p.cursor)
    (hused : i ≤ p.cursor → roundsDue road i q + 1 ≤ roundsDue road i p)
    (hkept : p.cursor < i → ¬ road.ClosesIn p.cursor i →
      roundsDue road i q ≤ roundsDue road i p) :
    visit i p + visitsDue road i q ≤ visitsDue road i p := by
  have hnone : ∀ f, t ≤ f → f < p.cursor → road.kindAt? f ≠ some .finalVoltaEnd := by
    intro f htf hf hkind
    rcases Nat.lt_or_eq_of_le htf with htf | rfl
    · rw [← hrest] at hf
      exact Roadmap.ne_finalVoltaEnd_of_lt_rest htf hf hkind
    · exact nomatch hopen.symm.trans hkind
  rcases Nat.lt_or_ge i t with hit | hti
  · have hzero : visitsDue road i q = 0 := by
      refine visitsDue_eq_zero hq (by omega) fun t' ht' => ?_
      obtain rfl : t = t' := Option.some.inj (hqstart.symm.trans ht')
      exact hit
    rw [hzero]
    exact visit_le_visitsDue road i p
  · have hqi : q.cursor ≤ i := Nat.le_trans (Nat.le_of_eq hcursor) hti
    rcases Nat.lt_trichotomy i p.cursor with hip | rfl | hpi
    · -- the mark is on the way, and there is one round less behind it
      have hopened : ¬ road.ClosesIn q.cursor i := by
        rw [hcursor]
        exact Roadmap.not_closesIn (Nat.le_of_lt hip) hnone
      have hround := hused (Nat.le_of_lt hip)
      rw [visitsDue_of_le hq hqi hopened, visitsDue_of_repeatStart hp hip hstart hti,
        visit_eq_zero (Nat.ne_of_gt hip)]
      omega
    · have hopened : ¬ road.ClosesIn q.cursor p.cursor := by
        rw [hcursor]
        exact Roadmap.not_closesIn (Nat.le_refl _) hnone
      have hround := hused (Nat.le_refl _)
      have hvisit : visit p.cursor p = 1 := if_pos rfl
      rw [visitsDue_of_le hq hqi hopened,
        visitsDue_of_le hp (Nat.le_refl _) (road.not_closesIn_self p.cursor), hvisit]
      omega
    · -- the mark is ahead of the turn
      have hiff : road.ClosesIn q.cursor i ↔ road.ClosesIn p.cursor i := by
        rw [hcursor]
        exact Roadmap.closesIn_iff (Nat.le_of_lt hlt) hnone
      rw [visit_eq_zero (Nat.ne_of_lt hpi), Nat.zero_add]
      by_cases hclose : road.ClosesIn p.cursor i
      · rw [visitsDue_of_closesIn hp (Nat.le_of_lt hpi) hclose,
          visitsDue_of_closesIn hq hqi (hiff.mpr hclose)]
      · have hround := hkept hpi hclose
        rw [visitsDue_of_le hp (Nat.le_of_lt hpi) hclose,
          visitsDue_of_le hq hqi fun h => hclose (hiff.mp h)]
        omega

/-! ## Turns and the potential -/

theorem visitsDue_opening (hbooks : Bookkeeping road p) (hmode : p.mode = .firstTime)
    (hkind : road.kindAt? p.cursor = some .repeatForward) :
    visit i p + visitsDue road i { p with repeatStart := some p.cursor }.advance ≤
      visitsDue road i p := by
  have hdue : repeatsDue road i { p with repeatStart := some p.cursor }.advance =
      repeatsDue road i p := by
    cases hleft : p.repeatsLeft with
    | none =>
      rw [repeatsDue_of_repeatsLeft hleft]
      exact repeatsDue_of_repeatsLeft rfl
    | some left =>
      -- the count under way is that of the `||:` under the cursor
      obtain ⟨t, times, hstart, hat, -⟩ := hbooks.counting left hleft
      have hcursor : p.cursor = t := by
        obtain ⟨-, h | ⟨-, hrest⟩⟩ := hbooks.opened t hstart
        · exact h
        · rw [hrest, Roadmap.rest_of_eq_none (Roadmap.glide?_eq_none hkind rfl (by simp)), hkind]
            at hat
          cases hat
      simp [repeatsDue, advance, hleft, hstart, hcursor]
  refine visitsDue_ahead hmode hmode (Nat.lt_succ_self _)
    (Roadmap.ne_finalVoltaEnd_of_kindAt? hkind (by simp)) rfl (fun _ => Nat.le_of_eq hdue) ?_
  intro t ht hti
  obtain rfl : p.cursor = t := Option.some.inj ht
  exact ⟨Nat.le_of_eq hdue, .inl hti⟩

theorem visitsDue_glide {j : Nat} (hmode : p.mode = .firstTime)
    (hglide : road.glide? p.pass p.cursor = some j) (shown : Option Position) :
    visit i p + visitsDue road i { p with cursor := j, shown } ≤ visitsDue road i p := by
  refine visitsDue_ahead hmode hmode (Roadmap.lt_of_glide? hglide)
    (fun f hle hlt => Roadmap.ne_finalVoltaEnd_of_glide? hglide hle hlt) rfl
    (fun _ => Nat.le_refl _) fun t ht _ => ⟨Nat.le_refl _, .inr ht⟩

theorem visitsDue_closing {times : Nat} (hbooks : Bookkeeping road p)
    (hmode : p.mode = .firstTime) (hkind : road.kindAt? p.cursor = some (.repeatBackward times)) :
    visit i p + visitsDue road i { p with repeatStart := none, repeatsLeft := none }.advance ≤
      visitsDue road i p := by
  refine visitsDue_ahead hmode hmode (Nat.lt_succ_self _)
    (Roadmap.ne_finalVoltaEnd_of_kindAt? hkind (by simp)) rfl ?_ (fun t ht => nomatch ht)
  -- for a mark ahead, the count of this `:||` had no part in it before
  intro hlt
  have hafter : repeatsDue road i { p with repeatStart := none, repeatsLeft := none }.advance =
      road.highestRepeat := repeatsDue_of_repeatStart rfl
  have hbefore : repeatsDue road i p = road.highestRepeat := by
    cases hstart : p.repeatStart with
    | none => exact repeatsDue_of_repeatStart hstart
    | some t =>
      obtain ⟨-, hrest⟩ := hbooks.rest_of_repeatBackward hkind hstart
      exact repeatsDue_of_rest_lt hstart (hrest ▸ hlt)
  rw [hafter, hbefore]

theorem visitsDue_goBack {times left : Nat} (hbooks : Bookkeeping road p)
    (hmode : p.mode = .firstTime) (hkind : road.kindAt? p.cursor = some (.repeatBackward times))
    (hstart : p.repeatStart = some t) (hleft : p.repeatsLeft.getD times = left + 1) :
    visit i p + visitsDue road i ({ p with repeatsLeft := some left }.jumpTo road t) ≤
      visitsDue road i p := by
  obtain ⟨hlt, hrest⟩ := hbooks.rest_of_repeatBackward hkind hstart
  refine visitsDue_back hmode hmode hstart hstart rfl (hbooks.opened t hstart).1 hlt hrest ?_ ?_
  · -- for the marks up to the sign its own count decides, and it goes down by one
    intro hi
    have hafter : repeatsDue road i ({ p with repeatsLeft := some left }.jumpTo road t) = left :=
      repeatsDue_of_counting hstart rfl (hrest ▸ hi)
    have hbefore : left + 1 ≤ repeatsDue road i p := by
      cases hcount : p.repeatsLeft with
      | none =>
        have hle := Roadmap.times_le_highestRepeat hkind
        rw [hcount, Option.getD_none] at hleft
        rw [repeatsDue_of_repeatsLeft hcount]
        omega
      | some k =>
        rw [hcount, Option.getD_some] at hleft
        rw [repeatsDue_of_counting hstart hcount (hrest ▸ hi)]
        omega
    unfold roundsDue
    rw [hafter]
    show road.highestVolta - p.pass + left + 1 ≤ _
    omega
  · -- for the marks behind it the count has no part in what is due
    intro hi _
    have hafter : repeatsDue road i ({ p with repeatsLeft := some left }.jumpTo road t) =
        road.highestRepeat := repeatsDue_of_rest_lt hstart (hrest ▸ hi)
    have hbefore := repeatsDue_of_rest_lt hstart (hrest ▸ hi)
    unfold roundsDue
    rw [hafter, hbefore]
    exact Nat.le_refl _

theorem visitsDue_nextPass (hbooks : Bookkeeping road p) (hmode : p.mode = .firstTime)
    (hkind : road.kindAt? p.cursor = some .finalVoltaEnd) (hstart : p.repeatStart = some t)
    (hpass : p.pass < road.highestEnding t p.cursor) :
    visit i p + visitsDue road i ({ p with pass := p.pass + 1 }.jumpTo road t) ≤
      visitsDue road i p := by
  obtain ⟨hlt, hrest⟩ := hbooks.rest_of_finalVoltaEnd hkind hstart
  have hleft := hbooks.repeatsLeft_of_finalVoltaEnd hkind
  refine visitsDue_back hmode hmode hstart hstart rfl (hbooks.opened t hstart).1 hlt hrest ?_ ?_
  · intro _
    have hafter : repeatsDue road i ({ p with pass := p.pass + 1 }.jumpTo road t) =
        road.highestRepeat := repeatsDue_of_repeatsLeft hleft
    have hle := road.highestEnding_le t p.cursor
    unfold roundsDue
    rw [hafter, repeatsDue_of_repeatsLeft hleft]
    show road.highestVolta - (p.pass + 1) + road.highestRepeat + 1 ≤ _
    omega
  · -- a mark behind the close does not see the passes in front of it
    intro hi hclose
    exact absurd ⟨p.cursor, hi, Nat.le_refl _, hkind⟩ hclose

/-- Behind a close all passes and repeats of the next section are due. -/
theorem visitsDue_lastPass (hmode : p.mode = .firstTime)
    (hkind : road.kindAt? p.cursor = some .finalVoltaEnd) :
    visit i p + visitsDue road i { p with pass := 1, repeatStart := none }.advance ≤
      visitsDue road i p := by
  rcases Nat.lt_or_ge p.cursor i with hlt | hge
  · have hbefore : visitsDue road i p = road.highestVolta + road.highestRepeat :=
      visitsDue_of_closesIn hmode (Nat.le_of_lt hlt) ⟨p.cursor, hlt, Nat.le_refl _, hkind⟩
    rw [visit_eq_zero (Nat.ne_of_lt hlt), hbefore, Nat.zero_add]
    by_cases hclose : road.ClosesIn (p.cursor + 1) i
    · exact Nat.le_of_eq (visitsDue_of_closesIn hmode hlt hclose)
    · have hafter : visitsDue road i { p with pass := 1, repeatStart := none }.advance =
          1 + roundsDue road i { p with pass := 1, repeatStart := none }.advance :=
        visitsDue_of_le hmode hlt hclose
      have hone := road.one_le_highestVolta
      rw [hafter, roundsDue, repeatsDue_of_repeatStart rfl]
      show 1 + (road.highestVolta - 1 + road.highestRepeat) ≤ _
      omega
  · have hzero : visitsDue road i { p with pass := 1, repeatStart := none }.advance = 0 :=
      visitsDue_eq_zero hmode (Nat.lt_succ_of_le hge) fun t ht => nomatch ht
    rw [hzero]
    exact visit_le_visitsDue road i p

/-- A replay comes by every mark at most once. -/
theorem visitsDue_replay {j : Nat} (hmode : p.mode = .replaying) (hlt : p.cursor < j)
    (shown : Option Position) :
    visit i p + visitsDue road i { p with cursor := j, shown } ≤ visitsDue road i p := by
  rw [visitsDue_of_replaying hmode,
    visitsDue_of_replaying (p := { p with cursor := j, shown }) hmode]
  unfold visit
  dsimp only
  split <;> split <;> split <;> omega

/-- To follow a command uses it up, and the replay comes by every mark at most once. -/
theorem potential_follow {kind : MarkKind} (hkind : road.kindAt? p.cursor = some kind)
    (hcommand : kind.isCommand = true) (hnew : p.cursor ∉ p.followed)
    (hq : q.mode = .replaying) (hfollowed : q.followed = p.cursor :: p.followed) :
    visit i p + potential road i q ≤ potential road i p := by
  have hused := Roadmap.newCommands_cons hkind hcommand hnew
  have hvisit := visit_le_visitsDue road i p
  have hdue : visitsDue road i q ≤ 1 := by
    rw [visitsDue_of_replaying hq]
    split <;> omega
  unfold potential
  rw [hfollowed]
  omega

/-- As long as no command is followed, only the visits of the leg change. -/
theorem potential_le (hfollowed : q.followed = p.followed)
    (hdue : visit i p + visitsDue road i q ≤ visitsDue road i p) :
    visit i p + potential road i q ≤ potential road i p := by
  unfold potential
  rw [hfollowed]
  omega

/-- **No turn raises the potential, and a visit lowers it.** -/
theorem potential_turn (hcodas : road.CodasAhead)
    (hbooks : p.mode = .firstTime → Bookkeeping road p) (hturn : Turn road p q) :
    visit i p + potential road i q ≤ potential road i p := by
  cases hturn with
  | opening hmode hkind =>
    exact potential_le rfl (visitsDue_opening (hbooks hmode) hmode hkind)
  | goBack hmode hkind hstart hleft =>
    exact potential_le rfl (visitsDue_goBack (hbooks hmode) hmode hkind hstart hleft)
  | closing hmode hkind hdone =>
    exact potential_le rfl (visitsDue_closing (hbooks hmode) hmode hkind)
  | passOver hmode hkind hover =>
    exact potential_le rfl (visitsDue_glide hmode (Roadmap.glide?_of_passedOver hkind hover) _)
  | skip hmode hkind hpass =>
    exact potential_le rfl (visitsDue_glide hmode (Roadmap.glide?_of_skip hkind hpass) _)
  | nextPass hmode hkind hstart hpass =>
    exact potential_le rfl (visitsDue_nextPass (hbooks hmode) hmode hkind hstart hpass)
  | lastPass hmode hkind hdone => exact potential_le rfl (visitsDue_lastPass hmode hkind)
  | daCapo hkind hnew => exact potential_follow hkind rfl hnew rfl rfl
  | dalSegno hkind hnew htarget => exact potential_follow hkind rfl hnew rfl rfl
  | passCommand hold =>
    cases hmode : p.mode with
    | firstTime =>
      rw [(hbooks hmode).followed_nil] at hold
      exact nomatch hold
    | replaying => exact potential_le rfl (visitsDue_replay hmode (Nat.lt_succ_self _) _)
  | replayOver hmode hkind hover =>
    exact potential_le rfl (visitsDue_replay hmode (Nat.lt_succ_self _) _)
  | toCoda hmode hkind htarget =>
    exact potential_le rfl (visitsDue_replay hmode (hcodas _ _ _ hkind htarget) _)

/-- What was shown has no part in the potential. -/
theorem potential_next? (hcodas : road.CodasAhead)
    (hbooks : p.mode = .firstTime → Bookkeeping road p) (hnext : p.next? road = some q) :
    visit i p + potential road i q ≤ potential road i p := by
  obtain ⟨m, -, hturn⟩ := turn_of_next? hnext
  exact potential_turn (p := p.playTo m.position) hcodas
    (fun hmode => (hbooks hmode).playTo m.position) hturn

/-! ## Visits of a performance -/

/-- A course pays for its visits with the potential. -/
theorem Course.count_add_potential (hcodas : road.CodasAhead)
    (hbooks : p.mode = .firstTime → Bookkeeping road p) (h : Course road p l q) :
    (l.map cursor).count i + potential road i q ≤ potential road i p := by
  induction h with
  | refl => simp
  | @round p p' q l hnext _ ih =>
    have hrest := ih fun hmode => Bookkeeping.next hbooks hnext hmode
    have hround := potential_next? (i := i) hcodas hbooks hnext
    have hcount : ((p :: l).map cursor).count i = (l.map cursor).count i + visit i p := by
      simp [List.count_cons, visit]
    omega

/-- No mark is visited more often than its potential at the beginning, the last arrival
included. -/
theorem Course.count_le (hcodas : road.CodasAhead) (h : Course road {} l q) (i : Nat) :
    ((l ++ [q]).map cursor).count i ≤ road.visitBound := by
  have hpaid := h.count_add_potential (i := i) hcodas fun _ => .init road
  have hlast : visit i q ≤ potential road i q :=
    Nat.le_trans (visit_le_visitsDue road i q) (Nat.le_add_left _ _)
  have hcount : ((l ++ [q]).map cursor).count i = (l.map cursor).count i + visit i q := by
    simp [List.count_append, List.count_singleton, visit]
  rw [potential_init] at hpaid
  omega

/-- A list of indices of marks that repeats none of them more often than `bound`. -/
theorem length_le_of_count_le {indices : List Nat} {marks bound : Nat}
    (hlt : ∀ i ∈ indices, i < marks) (hcount : ∀ i, indices.count i ≤ bound) :
    indices.length ≤ marks * bound := by
  have hsub : indices.toFinset ⊆ Finset.range marks := by
    intro i hi
    exact Finset.mem_range.mpr (hlt i (List.mem_toFinset.mp hi))
  calc indices.length = ∑ i ∈ indices.toFinset, indices.count i :=
        (List.sum_toFinset_count_eq_length indices).symm
    _ ≤ ∑ i ∈ Finset.range marks, indices.count i := Finset.sum_le_sum_of_subset hsub
    _ ≤ ∑ _i ∈ Finset.range marks, bound := Finset.sum_le_sum fun i _ => hcount i
    _ = marks * bound := by simp

end Performer

/-- A factor of at least the bound leaves a budget for all visits. -/
theorem Settings.le_budget (settings : Settings) {marks bound : Nat}
    (hfactor : bound ≤ settings.iterationFactor) (hsize : marks * bound < 2 ^ 64) :
    marks * bound ≤ settings.budget marks := by
  have hmul : marks * bound ≤ marks * max settings.iterationFactor 1 :=
    Nat.mul_le_mul_left marks (Nat.le_trans hfactor (Nat.le_max_left _ _))
  unfold budget maxBudget
  omega

open Performer in
/-- **The budget is enough for every score whose codas are ahead.** No performance of it
visits a mark more often than once for each pass, once for each repeat of one `:||` and
once for each command; and with so many arrivals for each mark, it is not broken off but
ends at a Fine or behind the last mark. -/
theorem perform_settles {score : List Segment}
    (hcodas : (Roadmap.ofScore score).CodasAhead) :
    let road := Roadmap.ofScore score
    let bound := road.highestVolta + road.highestRepeat + road.commands
    (∀ budget i, ((({} : Performer).run road budget).arrivals.map cursor).count i ≤ bound) ∧
      ∀ settings : Settings, bound ≤ settings.iterationFactor → road.length * bound < 2 ^ 64 →
        Warning.unsettled ∉ (perform settings score).warnings ∧
          ((({} : Performer).run road (settings.budget road.length)).ending = .fine ∨
            (({} : Performer).run road (settings.budget road.length)).ending = .ranOff) := by
  intro road bound
  constructor
  · intro budget i
    obtain ⟨l, a, hcourse, hends⟩ := run_endsAs road budget {}
    have hall := hcourse.count_le hcodas i
    have hpart : (l.map cursor).count i ≤ ((l ++ [a]).map cursor).count i := by
      rw [List.map_append, List.count_append]
      exact Nat.le_add_right _ _
    cases hends with
    | ranOff _ harrivals => exact harrivals ▸ Nat.le_trans hpart hall
    | unsettled _ harrivals => exact harrivals ▸ Nat.le_trans hpart hall
    | fine _ harrivals => exact harrivals ▸ hall
  · intro settings hfactor hsize
    obtain ⟨l, a, hcourse, hends⟩ := run_endsAs road (settings.budget road.length) {}
    have hwarnings : (perform settings score).warnings =
        if score.isEmpty then []
        else (({} : Performer).run road (settings.budget road.length)).warnings := by
      unfold perform
      split <;> rfl
    have hquiet (h : Warning.unsettled ∉
        (({} : Performer).run road (settings.budget road.length)).warnings) :
        Warning.unsettled ∉ (perform settings score).warnings := by
      rw [hwarnings]
      split
      · exact List.not_mem_nil
      · exact h
    cases hends with
    | ranOff hending _ _ _ hw => exact ⟨hquiet hw, .inr hending⟩
    | fine hending _ _ _ hw => exact ⟨hquiet hw, .inl hending⟩
    | unsettled _ _ hmore hspent =>
      -- one more arrival than the budget has would be one more than there can be
      exfalso
      have hlength : ((l ++ [a]).map cursor).length ≤ road.length * bound := by
        refine length_le_of_count_le (fun i hi => ?_) (hcourse.count_le hcodas)
        obtain ⟨b, hb, rfl⟩ := List.mem_map.mp hi
        rcases List.mem_append.mp hb with hb | hb
        · exact hcourse.cursor_lt b hb
        · rw [List.mem_singleton.mp hb]
          exact hmore
      have hbudget := settings.le_budget hfactor hsize
      rw [List.length_map, List.length_append, hspent, List.length_singleton] at hlength
      omega

/-- One segment with a D.C. al Coda, and the coda behind it. -/
def daCapoAlCoda : List Segment :=
  [{ id := default, marks := [{ kind := .toCoda none, x := .zero },
      { kind := .daCapo, x := .one }] },
    { id := default, marks := [{ kind := .coda none, x := .zero }] }]

/-- A piece with a D.C. al Coda comes to its end. -/
theorem perform_settles_daCapoAlCoda :
    (Roadmap.ofScore daCapoAlCoda).CodasAhead ∧
      (∀ budget i, ((({} : Performer).run (Roadmap.ofScore daCapoAlCoda) budget).arrivals.map
        Performer.cursor).count i ≤ 2) ∧
      Warning.unsettled ∉ (perform {} daCapoAlCoda).warnings := by
  have hcodas : (Roadmap.ofScore daCapoAlCoda).CodasAhead := by
    intro i label target hkind htarget
    have hlt : i < 3 := Roadmap.lt_length_of_kindAt? hkind
    have hcases : i = 0 ∨ i = 1 ∨ i = 2 := by omega
    rcases hcases with rfl | rfl | rfl
    · have hlabel : MarkKind.toCoda none = .toCoda label := Option.some.inj hkind
      obtain rfl : none = label := MarkKind.toCoda.inj hlabel
      have hfirst : (Roadmap.ofScore daCapoAlCoda).firstCoda? none = some 2 := by decide
      obtain rfl : 2 = target := Option.some.inj (hfirst.symm.trans htarget)
      exact Nat.zero_lt_two
    · exact nomatch hkind
    · exact nomatch hkind
  obtain ⟨hvisits, hsettles⟩ := perform_settles hcodas
  have hbound : (Roadmap.ofScore daCapoAlCoda).highestVolta +
      (Roadmap.ofScore daCapoAlCoda).highestRepeat +
      (Roadmap.ofScore daCapoAlCoda).commands = 2 := by decide
  rw [hbound] at hvisits hsettles
  exact ⟨hcodas, hvisits, (hsettles {} (by decide) (by decide)).1⟩

end Playthrough
