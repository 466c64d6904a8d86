import Mathlib.Data.List.Basic
import Playthrough.Proofs.Renumbering

/-!
# Marks taken out

If some marks of a score are taken out, the others stay in their order, under new numbers. A
`Selection` is a roadmap with each mark told whether it stays: `whole` is the roadmap with all
marks, `kept` that of the marks that stay, and `number` gives a mark its number among these.

- `findIdx?_kept`, `nextEndingBoundary_kept` and `highestEnding_kept`: which questions about
  the roadmap keep their answers;
- `Selection.ofScore`: the selection of the marks that stay on a score.
-/

namespace Playthrough

/-- A roadmap with each mark told whether it stays. -/
abbrev Selection := List (PlacedMark × Bool)

namespace Selection

variable {L : Selection} {i j n : Nat} {m : PlacedMark}

/-- All marks. -/
def whole (L : Selection) : Roadmap := L.map Prod.fst

/-- The marks that stay. -/
def kept (L : Selection) : Roadmap := (L.filter Prod.snd).map Prod.fst

/-- The number of a mark among those that stay: how many of them are in front of it. -/
def number (L : Selection) (i : Nat) : Nat := (kept (L.take i)).length

/-- The mark at an index stays. -/
def Stays (L : Selection) (i : Nat) : Prop := ∃ m, L[i]? = some (m, true)

/-! ## Numbers -/

theorem kept_append (L M : Selection) : kept (L ++ M) = kept L ++ kept M := by simp [kept]

theorem kept_split (L : Selection) (i : Nat) : kept L = kept (L.take i) ++ kept (L.drop i) := by
  rw [← kept_append, List.take_append_drop]

theorem take_kept (L : Selection) (i : Nat) : (kept L).take (L.number i) = kept (L.take i) := by
  rw [kept_split L i]
  exact List.take_left' rfl

theorem drop_kept (L : Selection) (i : Nat) : (kept L).drop (L.number i) = kept (L.drop i) := by
  rw [kept_split L i]
  exact List.drop_left' rfl

theorem number_zero (L : Selection) : L.number 0 = 0 := rfl

theorem number_of_length_le (h : L.length ≤ i) : L.number i = L.kept.length := by
  rw [number, List.take_of_length_le h]

theorem number_le_length (L : Selection) (i : Nat) : L.number i ≤ L.kept.length := by
  rw [kept_split L i, List.length_append]
  exact Nat.le_add_right _ _

theorem number_succ_of_stays (h : L.Stays i) : L.number (i + 1) = L.number i + 1 := by
  obtain ⟨m, hm⟩ := h
  rw [number, List.take_add_one, hm, kept_append, List.length_append]
  rfl

/-- A mark that is taken out has the number of the next one. -/
theorem number_succ_of_not_stays (h : ¬ L.Stays i) : L.number (i + 1) = L.number i := by
  rw [number, List.take_add_one, kept_append, List.length_append]
  cases hx : L[i]? with
  | none => rfl
  | some x =>
    obtain ⟨m, stays⟩ := x
    cases stays with
    | false => rfl
    | true => exact absurd ⟨m, hx⟩ h

theorem number_mono (h : i ≤ j) : L.number i ≤ L.number j := by
  have htake : L.take i = (L.take j).take i := by rw [List.take_take, Nat.min_eq_left h]
  rw [number, htake]
  exact number_le_length (L.take j) i

theorem number_lt_number (hi : L.Stays i) (h : i < j) : L.number i < L.number j := by
  have hsucc := number_succ_of_stays hi
  have hle : L.number (i + 1) ≤ L.number j := number_mono h
  omega

theorem number_lt_iff (hi : L.Stays i) : L.number i < L.number j ↔ i < j := by
  constructor
  · intro h
    by_contra hnot
    exact absurd (number_mono (Nat.le_of_not_lt hnot)) (Nat.not_le_of_lt h)
  · exact number_lt_number hi

/-- Marks that stay have different numbers. -/
theorem eq_of_number_eq (hi : L.Stays i) (hj : L.Stays j) (h : L.number i = L.number j) :
    i = j := by
  rcases Nat.lt_trichotomy i j with hlt | heq | hgt
  · exact absurd h (Nat.ne_of_lt (number_lt_number hi hlt))
  · exact heq
  · exact absurd h (Nat.ne_of_gt (number_lt_number hj hgt))

/-! ## Marks under their numbers -/

theorem getElem?_whole (L : Selection) (i : Nat) : L.whole[i]? = L[i]?.map Prod.fst :=
  List.getElem?_map

theorem length_whole (L : Selection) : L.whole.length = L.length := List.length_map _

/-- A mark that stays is found under its number. -/
theorem getElem?_kept (h : L[i]? = some (m, true)) : L.kept[L.number i]? = some m := by
  obtain ⟨hlt, hget⟩ := List.getElem?_eq_some_iff.mp h
  have hdrop : kept (L.drop i) = m :: kept (L.drop (i + 1)) := by
    rw [List.drop_eq_getElem_cons hlt, hget]
    rfl
  rw [kept_split L i, hdrop, number, List.getElem?_append_right (Nat.le_refl _), Nat.sub_self]
  rfl

/-- Every mark of the shorter roadmap has stayed. -/
theorem exists_of_getElem?_kept (h : L.kept[n]? = some m) :
    ∃ i, L[i]? = some (m, true) ∧ L.number i = n := by
  induction L generalizing n with
  | nil => cases h
  | cons x L ih =>
    obtain ⟨first, stays⟩ := x
    cases stays with
    | false =>
      obtain ⟨i, hi, hn⟩ := ih (n := n) h
      exact ⟨i + 1, hi, hn⟩
    | true =>
      cases n with
      | zero =>
        obtain rfl : first = m := Option.some.inj h
        exact ⟨0, rfl, rfl⟩
      | succ n =>
        obtain ⟨i, hi, hn⟩ := ih (n := n) h
        exact ⟨i + 1, hi, congrArg (· + 1) hn⟩

theorem kindAt?_kept (h : L.Stays i) : L.kept.kindAt? (L.number i) = L.whole.kindAt? i := by
  obtain ⟨m, hm⟩ := h
  rw [Roadmap.kindAt?, Roadmap.kindAt?, getElem?_kept hm, getElem?_whole, hm]
  rfl

theorem positionAt?_kept (h : L.Stays i) :
    L.kept.positionAt? (L.number i) = L.whole.positionAt? i := by
  obtain ⟨m, hm⟩ := h
  rw [Roadmap.positionAt?, Roadmap.positionAt?, getElem?_kept hm, getElem?_whole, hm]
  rfl

/-! ## Questions with the same answers -/

/-- If the first mark of its kind stays, it is still the first one. -/
theorem findIdx?_kept (P : PlacedMark → Bool)
    (h : ∀ i, L.whole.findIdx? P = some i → L.Stays i) :
    L.kept.findIdx? P = (L.whole.findIdx? P).map L.number := by
  induction L with
  | nil => rfl
  | cons x L ih =>
    obtain ⟨m, stays⟩ := x
    have hwhole : whole ((m, stays) :: L) = m :: whole L := rfl
    rw [hwhole, List.findIdx?_cons] at h ⊢
    by_cases hP : P m
    · rw [if_pos hP] at h ⊢
      obtain ⟨m', hm'⟩ := h 0 rfl
      obtain rfl : stays = true := congrArg Prod.snd (Option.some.inj hm')
      have hkept : kept ((m, true) :: L) = m :: kept L := rfl
      rw [hkept, List.findIdx?_cons, if_pos hP]
      rfl
    · rw [if_neg hP] at h ⊢
      have hrest := ih fun i hi => by
        rw [hi] at h
        exact h (i + 1) rfl
      cases stays with
      | false =>
        have hkept : kept ((m, false) :: L) = kept L := rfl
        rw [hkept, hrest, Option.map_map]
        rfl
      | true =>
        have hkept : kept ((m, true) :: L) = m :: kept L := rfl
        rw [hkept, List.findIdx?_cons, if_neg hP, hrest, Option.map_map, Option.map_map]
        rfl

/-- Ending brackets and the close of the last one stay. -/
def KeepsEndings (L : Selection) : Prop :=
  ∀ i kind, L.whole.kindAt? i = some kind → kind.isEndingBoundary = true → L.Stays i

/-- If the endings stay, the next one is still the next one. -/
theorem nextEndingBoundary_kept (hendings : L.KeepsEndings) (hi : L.Stays i) :
    L.kept.nextEndingBoundary (L.number i) = L.number (L.whole.nextEndingBoundary i) := by
  have hin : i < L.whole.length := by
    obtain ⟨m, hm⟩ := hi
    rw [length_whole]
    exact (List.getElem?_eq_some_iff.mp hm).1
  refine Roadmap.nextEndingBoundary_eq
    (number_lt_number hi (Roadmap.lt_nextEndingBoundary hin)) (number_le_length L _) ?_ ?_
  · rcases L.whole.nextEndingBoundary_cases i with ⟨kind, -, hkind, hboundary⟩ | hend
    · exact .inr ⟨kind, (kindAt?_kept (hendings _ _ hkind hboundary)).trans hkind, hboundary⟩
    · exact .inl (by rw [hend, number_of_length_le (Nat.le_of_eq (length_whole L).symm)])
  · intro k kind hik hk hkind
    obtain ⟨m, hm, rfl⟩ := Roadmap.exists_mark_of_kindAt? hkind
    obtain ⟨j, hj, rfl⟩ := exists_of_getElem?_kept hm
    have hij : i < j := (number_lt_iff hi).mp hik
    have hjb : j < L.whole.nextEndingBoundary i := (number_lt_iff ⟨m, hj⟩).mp hk
    refine Roadmap.isEndingBoundary_of_lt_nextEndingBoundary hij hjb ?_
    rw [Roadmap.kindAt?, getElem?_whole, hj]
    rfl

/-- What is taken out without saying anything is not missed. -/
theorem flatMap_kept {β : Type} (f : PlacedMark → List β)
    (h : ∀ x ∈ L, x.2 = false → f x.1 = []) : L.kept.flatMap f = L.whole.flatMap f := by
  induction L with
  | nil => rfl
  | cons x L ih =>
    obtain ⟨m, stays⟩ := x
    have hrest := ih fun x hx => h x (List.mem_cons_of_mem _ hx)
    have hwhole : whole ((m, stays) :: L) = m :: whole L := rfl
    rw [hwhole, List.flatMap_cons, ← hrest]
    cases stays with
    | false =>
      rw [h (m, false) List.mem_cons_self rfl]
      rfl
    | true => rfl

theorem KeepsEndings.endingNumbers_eq_nil (h : L.KeepsEndings) {x : PlacedMark × Bool} (hx : x ∈ L)
    (hout : x.2 = false) : x.1.kind.endingNumbers = [] := by
  obtain ⟨m, stays⟩ := x
  obtain ⟨i, hi⟩ := List.mem_iff_getElem?.mp hx
  have hkind : L.whole.kindAt? i = some m.kind := by
    rw [Roadmap.kindAt?, getElem?_whole, hi]
    rfl
  cases hvolta : m.kind with
  | volta numbers =>
    -- a bracket would have stayed
    rw [hvolta] at hkind
    obtain ⟨m', hm'⟩ := h i _ hkind rfl
    have hstays : stays = true := congrArg Prod.snd (Option.some.inj (hi.symm.trans hm'))
    subst hstays
    cases hout
  | _ => rfl

/-- If the endings stay, the highest of them is still the same. -/
theorem highestEnding_kept (hendings : L.KeepsEndings) (hi : L.Stays i) (t : Nat) :
    L.kept.highestEnding (L.number t) (L.number i) = L.whole.highestEnding t i := by
  have hslice : ((L.kept.take (L.number i + 1)).drop (L.number t)).flatMap
        (fun m => m.kind.endingNumbers) =
      ((L.whole.take (i + 1)).drop t).flatMap fun m => m.kind.endingNumbers := by
    rw [← number_succ_of_stays hi, take_kept]
    rcases Nat.le_total t (i + 1) with hle | hge
    · have hnumber : L.number t = number (L.take (i + 1)) t := by
        rw [number, number, List.take_take, Nat.min_eq_left hle]
      have hwhole : (L.whole.take (i + 1)).drop t = whole ((L.take (i + 1)).drop t) := by
        rw [whole, whole, List.map_drop, List.map_take]
      rw [hnumber, drop_kept, hwhole]
      refine flatMap_kept _ fun x hx hout => hendings.endingNumbers_eq_nil ?_ hout
      exact List.mem_of_mem_take (List.mem_of_mem_drop hx)
    · have hnone : (kept (L.take (i + 1))).drop (L.number t) = [] :=
        List.drop_eq_nil_of_le (number_mono hge)
      have hnone' : (L.whole.take (i + 1)).drop t = [] :=
        List.drop_eq_nil_of_le (Nat.le_trans (List.length_take_le _ _) hge)
      rw [hnone, hnone']
  rw [Roadmap.highestEnding, Roadmap.highestEnding, hslice]

end Selection

/-! ## Scores -/

/-- The segment without the marks that do not stay. -/
def Segment.keepMarks (stays : Nat → Bool) (s : Segment) : Segment :=
  { s with marks := (s.marks.zipIdx.filter fun x => stays x.2).map Prod.fst }

/-- The score without the marks that do not stay; `stays` is asked about the index of the
segment and that of the mark among those placed on it. -/
def keepMarks (stays : Nat → Nat → Bool) (score : List Segment) : List Segment :=
  score.zipIdx.map fun (s, index) => s.keepMarks (stays index)

theorem length_keepMarks (stays : Nat → Nat → Bool) (score : List Segment) :
    (keepMarks stays score).length = score.length := by
  simp [keepMarks]

namespace Selection

/-- The marks of one segment from left to right, each told whether it stays. -/
def ofSegment (stays : Nat → Bool) (s : Segment) : List (Mark × Bool) :=
  stableSort (fun a b => decide (a.1.x < b.1.x)) (s.marks.zipIdx.map fun x => (x.1, stays x.2))

/-- The roadmap of a score, each mark told whether it stays. -/
def ofScore (stays : Nat → Nat → Bool) (score : List Segment) : Selection :=
  score.zipIdx.flatMap fun (s, index) =>
    (ofSegment (stays index) s).map fun x => ({ segment := index, mark := x.1 }, x.2)

theorem map_fst_ofSegment (stays : Nat → Bool) (s : Segment) :
    (ofSegment stays s).map Prod.fst = Roadmap.marksInOrder s := by
  have hmarks : (s.marks.zipIdx.map fun x => (x.1, stays x.2)).map Prod.fst = s.marks := by
    rw [List.map_map]
    exact List.zipIdx_map_fst 0 s.marks
  have hsort := stableSort_map (Prod.fst : Mark × Bool → Mark) (fun a b => decide (a.x < b.x))
    (s.marks.zipIdx.map fun x => (x.1, stays x.2))
  rw [hmarks] at hsort
  exact hsort

/-- The marks that stay on a segment are those of the segment without the others. -/
theorem map_fst_filter_ofSegment (stays : Nat → Bool) {s : Segment}
    (h : ∀ m ∈ s.marks, m.x.isNaN = false) :
    ((ofSegment stays s).filter Prod.snd).map Prod.fst =
      Roadmap.marksInOrder (s.keepMarks stays) := by
  have hplaces : ∀ x ∈ s.marks.zipIdx.map fun x => (x.1, stays x.2), x.1.x.isNaN = false := by
    intro x hx
    obtain ⟨y, hy, rfl⟩ := List.mem_map.mp hx
    exact h y.1 (List.fst_mem_of_mem_zipIdx hy)
  have hmarks : ((s.marks.zipIdx.map fun x => (x.1, stays x.2)).filter Prod.snd).map Prod.fst =
      (s.keepMarks stays).marks := by
    rw [List.filter_map, List.map_map]
    rfl
  have hsort := stableSort_map (Prod.fst : Mark × Bool → Mark) (fun a b => decide (a.x < b.x))
    ((s.marks.zipIdx.map fun x => (x.1, stays x.2)).filter Prod.snd)
  rw [hmarks] at hsort
  rw [ofSegment, stableSort_lt (fun x : Mark × Bool => x.1.x) hplaces,
    stableSort_filter fun x : Mark × Bool => x.1.x.rank,
    ← stableSort_lt (fun x : Mark × Bool => x.1.x) fun x hx => hplaces x (List.mem_filter.mp hx).1]
  exact hsort

theorem whole_ofScore (stays : Nat → Nat → Bool) (score : List Segment) :
    (ofScore stays score).whole = Roadmap.ofScore score := by
  rw [whole, ofScore, Roadmap.ofScore, List.map_flatMap]
  refine List.flatMap_congr ?_
  rintro ⟨s, index⟩ -
  dsimp only
  rw [← map_fst_ofSegment (stays index), List.map_map, List.map_map]
  rfl

/-- **The marks that stay are the roadmap of the score without the others.** -/
theorem kept_ofScore (stays : Nat → Nat → Bool) {score : List Segment} (h : HasPlaces score) :
    (ofScore stays score).kept = Roadmap.ofScore (keepMarks stays score) := by
  have hsegment (s : Segment) (hs : s ∈ score) (index : Nat) :
      kept ((ofSegment (stays index) s).map fun x => ({ segment := index, mark := x.1 }, x.2)) =
        (Roadmap.marksInOrder (s.keepMarks (stays index))).map fun mark =>
          { segment := index, mark } := by
    rw [← map_fst_filter_ofSegment _ (h s hs), kept, List.filter_map, List.map_map, List.map_map]
    rfl
  unfold ofScore keepMarks Roadmap.ofScore
  -- segment by segment, from any index on
  generalize 0 = first
  induction score generalizing first with
  | nil => rfl
  | cons s rest ih =>
    have hrest := ih (fun t ht => h t (List.mem_cons_of_mem s ht))
      (fun t ht => hsegment t (List.mem_cons_of_mem s ht)) (first + 1)
    simp only [List.zipIdx_cons, List.flatMap_cons, List.map_cons, kept_append, hrest,
      hsegment s List.mem_cons_self]

end Selection

end Playthrough
