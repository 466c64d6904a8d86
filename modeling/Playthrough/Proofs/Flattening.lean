import Mathlib.Data.List.Forall2
import Mathlib.Data.List.Perm.Basic
import Mathlib.Data.Prod.Lex
import Playthrough.Proofs.Merging

/-!
# The roadmap of a score is its only flattening

The roadmap of a score has every mark of the score, each with the index of its segment, from left
to right, and marks at one place in the order in which they are listed. There is just one list
like that. Nothing else about how the marks are listed has any influence: not on the roadmap, and
not on what is performed.

- `eq_of_perm_of_ties`: a sorted list is determined by its elements and the order of its ties;
- `stableSort_ties`: sorting keeps the order of ties;
- `Roadmap.Flattens`: what makes a list of placed marks the flattening of a score;
- `perform_inScore`: a performance depends on the roadmap and the number of segments only;
- `ofScore_is_the_flattening`: all of this together.
-/

namespace Playthrough

universe u v

/-! ## Sorted lists and their ties -/

section Ties

variable {α : Type u}

/-- **A sorted list is determined by its elements and the order of its ties.** -/
theorem eq_of_perm_of_ties {κ : Type v} [PartialOrder κ] [DecidableEq κ] (key : α → κ)
    {l m : List α} (hperm : l.Perm m) (hl : l.Pairwise fun a b => key a ≤ key b)
    (hm : m.Pairwise fun a b => key a ≤ key b)
    (hties : ∀ a ∈ l, (l.filter fun b => key b = key a) = m.filter fun b => key b = key a) :
    l = m := by
  induction l generalizing m with
  | nil => exact hperm.nil_eq
  | cons a l ih =>
    cases m with
    | nil => exact absurd hperm.symm.nil_eq.symm (List.cons_ne_nil a l)
    | cons b m =>
      obtain ⟨ha, hl'⟩ := List.pairwise_cons.mp hl
      obtain ⟨hb, hm'⟩ := List.pairwise_cons.mp hm
      -- both first elements have the least key
      have hab : key a ≤ key b := by
        rcases List.mem_cons.mp (hperm.mem_iff.mpr List.mem_cons_self) with heq | hmem
        · exact le_of_eq (congrArg key heq.symm)
        · exact ha b hmem
      have hba : key b ≤ key a := by
        rcases List.mem_cons.mp (hperm.mem_iff.mp List.mem_cons_self) with heq | hmem
        · exact le_of_eq (congrArg key heq.symm)
        · exact hb a hmem
      have hkey : key b = key a := le_antisymm hba hab
      have hfirst := hties a List.mem_cons_self
      rw [List.filter_cons_of_pos (by simp), List.filter_cons_of_pos (by simp [hkey])] at hfirst
      obtain ⟨rfl, -⟩ := List.cons.inj hfirst
      rw [ih hperm.cons_inv hl' hm' fun c hc => ?_]
      have hrest := hties c (List.mem_cons_of_mem a hc)
      by_cases hc : key a = key c
      · rw [List.filter_cons_of_pos (by simp [hc]), List.filter_cons_of_pos (by simp [hc])] at hrest
        exact (List.cons.inj hrest).2
      · rwa [List.filter_cons_of_neg (by simp [hc]), List.filter_cons_of_neg (by simp [hc])]
          at hrest

theorem foldl_insertFromEnd_of_forall {lt : α → α → Bool} {l sorted : List α}
    (h : ∀ a ∈ l, ∀ b ∈ l ++ sorted, lt a b = false) :
    l.foldl (fun sorted a => insertFromEnd lt a sorted) sorted = l.reverse ++ sorted := by
  induction l generalizing sorted with
  | nil => rfl
  | cons a l ih =>
    have hfront : insertFromEnd lt a sorted = a :: sorted :=
      insertFromEnd_of_forall fun b hb => h a List.mem_cons_self b (List.mem_append_right _ hb)
    rw [List.foldl_cons, hfront, ih, List.reverse_cons, List.append_assoc, List.singleton_append]
    intro b hb c hc
    refine h b (List.mem_cons_of_mem a hb) c ?_
    rcases List.mem_append.mp hc with hc | hc
    · exact List.mem_append_left _ (List.mem_cons_of_mem a hc)
    · rcases List.mem_cons.mp hc with rfl | hc
      · exact List.mem_append_left _ List.mem_cons_self
      · exact List.mem_append_right _ hc

/-- Where nothing is less than anything else, sorting changes nothing. -/
theorem stableSort_of_forall {lt : α → α → Bool} {l : List α}
    (h : ∀ a ∈ l, ∀ b ∈ l, lt a b = false) : stableSort lt l = l := by
  have hfold : l.foldl (fun sorted a => insertFromEnd lt a sorted) [] = l.reverse ++ [] :=
    foldl_insertFromEnd_of_forall (by simpa using h)
  rw [stableSort, hfold, List.append_nil, List.reverse_reverse]

/-- **Sorting keeps the order of ties.** -/
theorem stableSort_ties {κ : Type v} [LinearOrder κ] (key : α → κ) (k : κ) (l : List α) :
    ((stableSort (fun a b => decide (key a < key b)) l).filter fun a => key a = k) =
      l.filter fun a => key a = k := by
  rw [stableSort_filter]
  refine stableSort_of_forall fun a ha b hb => ?_
  have ha : key a = k := by simpa using (List.mem_filter.mp ha).2
  have hb : key b = k := by simpa using (List.mem_filter.mp hb).2
  exact decide_eq_false (by rw [ha, hb]; exact lt_irrefl k)

end Ties

/-! ## Marks at a place -/

/-- The mark stands at this place. Both zeros are the same place. -/
def Mark.At (m : Mark) (x : Binary64) : Prop := m.x ≤ x ∧ x ≤ m.x

instance (m : Mark) (x : Binary64) : Decidable (m.At x) := inferInstanceAs (Decidable (_ ∧ _))

theorem Mark.at_iff {m : Mark} {x : Binary64} (hm : m.x.isNaN = false) (hx : x.isNaN = false) :
    m.At x ↔ m.x.rank = x.rank := by
  simp only [Mark.At, Binary64.le_iff, hm, hx, true_and]
  omega

namespace Roadmap

/-- Within a segment the marks at one place are met in the order in which they are listed. -/
theorem marksInOrder_filter_at {s : Segment} (h : ∀ m ∈ s.marks, m.x.isNaN = false)
    (x : Binary64) :
    ((marksInOrder s).filter fun m => m.At x) = s.marks.filter fun m => m.At x := by
  cases hx : x.isNaN with
  | true =>
    have hnone (m : Mark) : ¬ m.At x := fun hat => by simp [hat.1.2.1] at hx
    simp [hnone]
  | false =>
    have hties := stableSort_ties (fun m : Mark => m.x.rank) x.rank s.marks
    rw [← stableSort_lt Mark.x h] at hties
    have hat {l : List Mark} (hl : ∀ m ∈ l, m.x.isNaN = false) :
        (l.filter fun m => m.At x) = l.filter fun m => m.x.rank = x.rank :=
      List.filter_congr fun m hm => decide_eq_decide.mpr (Mark.at_iff (hl m hm) hx)
    rw [hat h, hat fun m hm => h m ((marksInOrder_perm s).mem_iff.mp hm)]
    exact hties

/-! ## Flattenings -/

/-- The marks of a score as they are listed, each with the index of its segment. -/
def asListed (score : List Segment) : Roadmap :=
  score.zipIdx.flatMap fun (s, index) => s.marks.map fun mark => { segment := index, mark }

/-- What makes a list of placed marks the flattening of a score. -/
structure Flattens (score : List Segment) (road : Roadmap) : Prop where
  /-- Every mark of every segment is in the list once, with the index of its segment, and nothing
  else is. -/
  complete : road.Perm (asListed score)
  /-- The marks are met from left to right. -/
  inOrder : road.Pairwise fun a b => a.position ≤ b.position
  /-- Marks at one place of a segment are in the order in which the segment lists them. -/
  ties : ∀ index s, score[index]? = some s → ∀ x,
    ((road.filter fun m => m.segment = index ∧ m.mark.At x).map PlacedMark.mark) =
      s.marks.filter fun m => m.At x

/-- Of what there is for every segment in turn, only what there is for the one with this index. -/
theorem flatMap_zipIdx_ite {β : Type u} (g : Segment → List β) {score : List Segment} {index : Nat}
    {s : Segment} (hs : score[index]? = some s) (first : Nat) :
    ((score.zipIdx first).flatMap fun (t, i) => if i = first + index then g t else []) = g s := by
  induction score generalizing first index with
  | nil => simp at hs
  | cons t rest ih =>
    rw [List.zipIdx_cons, List.flatMap_cons]
    cases index with
    | zero =>
      obtain rfl : t = s := by simpa using hs
      have hrest : ((rest.zipIdx (first + 1)).flatMap fun (t, i) =>
          if i = first + 0 then g t else []) = [] := by
        refine List.flatMap_eq_nil_iff.mpr ?_
        rintro ⟨u, i⟩ hmem
        have hlo : first + 1 ≤ i := List.le_snd_of_mem_zipIdx hmem
        exact if_neg (by omega)
      rw [hrest, List.append_nil]
      exact if_pos rfl
    | succ index =>
      have hrest := ih (by simpa using hs) (first + 1)
      have hfirst : (if first = first + (index + 1) then g t else []) = [] := if_neg (by omega)
      rw [Nat.add_right_comm] at hrest
      show (if first = first + (index + 1) then g t else []) ++ _ = g s
      rw [hfirst, List.nil_append]
      exact hrest

/-- On one segment, a property of marks selects as much of the list of all placed marks as of the
marks of this segment. -/
theorem map_mark_filter_flatMap (f : Segment → List Mark) (P : Mark → Prop) [DecidablePred P]
    {score : List Segment} {index : Nat} {s : Segment} (hs : score[index]? = some s) :
    (((score.zipIdx.flatMap fun (s, index) =>
        (f s).map fun mark => ({ segment := index, mark } : PlacedMark)).filter
      fun m => m.segment = index ∧ P m.mark).map PlacedMark.mark) =
      (f s).filter fun m => P m := by
  have hsegment (t : Segment) (i : Nat) :
      ((((f t).map fun mark => ({ segment := i, mark } : PlacedMark)).filter
        fun m => m.segment = index ∧ P m.mark).map PlacedMark.mark) =
        if i = 0 + index then (f t).filter fun m => P m else [] := by
    rw [List.filter_map, List.map_map, Nat.zero_add]
    by_cases hi : i = index
    · simp [hi, Function.comp_def]
    · simp [hi, Function.comp_def]
  rw [List.filter_flatMap, List.map_flatMap,
    ← flatMap_zipIdx_ite (fun t => (f t).filter fun m => P m) hs 0]
  exact List.flatMap_congr fun x _ => hsegment x.1 x.2

/-- The roadmap is a flattening of the score. -/
theorem flattens_ofScore {score : List Segment} (h : HasPlaces score) :
    Flattens score (ofScore score) := by
  constructor
  case complete =>
    exact List.Perm.flatMap_left _ fun x _ => (marksInOrder_perm x.1).map _
  case inOrder => exact ofScore_pairwise h
  case ties =>
    intro index s hs x
    rw [← marksInOrder_filter_at (h s (List.mem_of_getElem? hs))]
    exact map_mark_filter_flatMap marksInOrder (fun m => m.At x) hs

/-- By what the marks of a roadmap are sorted. -/
def sortKey (m : PlacedMark) : ℕ ×ₗ ℤ := toLex (m.segment, m.mark.x.rank)

theorem sortKey_le {a b : PlacedMark} (h : a.position ≤ b.position) : sortKey a ≤ sortKey b := by
  rw [sortKey, sortKey, Prod.Lex.toLex_le_toLex]
  rcases h with hlt | ⟨heq, hx⟩
  · exact .inl hlt
  · exact .inr ⟨heq, hx.2.2⟩

theorem Flattens.mem {score : List Segment} {road : Roadmap} (h : Flattens score road)
    {m : PlacedMark} (hm : m ∈ road) : ∃ s, score[m.segment]? = some s ∧ m.mark ∈ s.marks := by
  obtain ⟨⟨s, index⟩, hs, hmem⟩ := List.mem_flatMap.mp (h.complete.mem_iff.mp hm)
  obtain ⟨mark, hmark, rfl⟩ := List.mem_map.mp hmem
  exact ⟨s, List.mem_zipIdx_iff_getElem?.mp hs, hmark⟩

/-- Two flattenings agree on each place. -/
theorem Flattens.filter_eq {score : List Segment} {road road' : Roadmap} (hscore : HasPlaces score)
    (h : Flattens score road) (h' : Flattens score road') {m : PlacedMark} (hm : m ∈ road) :
    (road.filter fun n => sortKey n = sortKey m) = road'.filter fun n => sortKey n = sortKey m := by
  obtain ⟨s, hs, hmark⟩ := h.mem hm
  have hplace := hscore s (List.mem_of_getElem? hs) m.mark hmark
  -- a filtered roadmap is told by its marks
  have hback {l : Roadmap} (hl : Flattens score l) :
      (l.filter fun n => sortKey n = sortKey m) =
        (s.marks.filter fun n => n.At m.mark.x).map fun mark => { segment := m.segment, mark } := by
    have hkey : (l.filter fun n => sortKey n = sortKey m) =
        l.filter fun n => n.segment = m.segment ∧ n.mark.At m.mark.x := by
      refine List.filter_congr fun n hn => decide_eq_decide.mpr ?_
      obtain ⟨t, ht, hn⟩ := hl.mem hn
      rw [Mark.at_iff (hscore t (List.mem_of_getElem? ht) n.mark hn) hplace, sortKey, sortKey,
        toLex_inj, Prod.mk.injEq]
    rw [hkey, ← hl.ties m.segment s hs, List.map_map]
    refine (List.map_id _).symm.trans (List.map_congr_left fun n hn => ?_)
    have hsegment : n.segment = m.segment := (of_decide_eq_true (List.mem_filter.mp hn).2).1
    rw [← hsegment]
    rfl
  rw [hback h, hback h']

/-- **There is just one flattening of a score.** -/
theorem flattens_iff {score : List Segment} (hscore : HasPlaces score) {road : Roadmap} :
    Flattens score road ↔ road = ofScore score := by
  constructor
  · intro h
    have hroad := flattens_ofScore hscore
    exact eq_of_perm_of_ties sortKey (h.complete.trans hroad.complete.symm)
      (h.inOrder.imp sortKey_le) (hroad.inOrder.imp sortKey_le)
      fun m hm => h.filter_eq hscore hroad hm
  · rintro rfl
    exact flattens_ofScore hscore

end Roadmap

/-! ## Scores that are listed otherwise -/

/-- The segments differ in nothing but the order in which their marks are listed, and not in the
order of marks at one place. -/
structure Segment.Rearranged (s t : Segment) : Prop where
  /-- Apart from the marks, the segments are the same. -/
  rest : { s with marks := t.marks } = t
  /-- The marks are the same. -/
  marks : s.marks.Perm t.marks
  /-- Marks at one place are listed in the same order. -/
  ties : ∀ x, (s.marks.filter fun m => m.At x) = t.marks.filter fun m => m.At x

namespace Roadmap

/-- From left to right, the marks of such segments are the same. -/
theorem marksInOrder_rearranged {s t : Segment} (hs : ∀ m ∈ s.marks, m.x.isNaN = false)
    (h : s.Rearranged t) : marksInOrder t = marksInOrder s := by
  have ht : ∀ m ∈ t.marks, m.x.isNaN = false := fun m hm => hs m (h.marks.mem_iff.mpr hm)
  have hperm : (marksInOrder t).Perm (marksInOrder s) :=
    (marksInOrder_perm t).trans (h.marks.symm.trans (marksInOrder_perm s).symm)
  refine eq_of_perm_of_ties (fun m : Mark => m.x.rank) hperm
    ((marksInOrder_pairwise ht).imp fun hle => hle.2.2)
    ((marksInOrder_pairwise hs).imp fun hle => hle.2.2) fun m hm => ?_
  have hplace := ht m ((marksInOrder_perm t).mem_iff.mp hm)
  have hat {l : List Mark} (hl : ∀ n ∈ l, n.x.isNaN = false) :
      (l.filter fun n => n.x.rank = m.x.rank) = l.filter fun n => n.At m.x :=
    List.filter_congr fun n hn => decide_eq_decide.mpr (Mark.at_iff (hl n hn) hplace).symm
  rw [hat fun n hn => ht n ((marksInOrder_perm t).mem_iff.mp hn),
    hat fun n hn => hs n ((marksInOrder_perm s).mem_iff.mp hn),
    marksInOrder_filter_at ht, marksInOrder_filter_at hs, h.ties]

/-- Scores whose segments list the same marks in another order have the same roadmap. -/
theorem ofScore_rearranged {score score' : List Segment} (hscore : HasPlaces score)
    (h : List.Forall₂ Segment.Rearranged score score') : ofScore score' = ofScore score := by
  unfold ofScore
  -- segment by segment, from any index on
  generalize 0 = first
  induction h generalizing first with
  | nil => rfl
  | @cons s t rest rest' hst _ ih =>
    have hs : ∀ m ∈ s.marks, m.x.isNaN = false := hscore s List.mem_cons_self
    have hrest := ih (fun u hu => hscore u (List.mem_cons_of_mem s hu)) (first + 1)
    simp only [List.zipIdx_cons, List.flatMap_cons, marksInOrder_rearranged hs hst, hrest]

end Roadmap

/-! ## What a performance depends on -/

section Performances

variable {score score' : List Segment}

/-- The same stretch of the segment that another score has at this place. -/
def Passage.inScore (score : List Segment) (p : Passage) : Passage :=
  { p with segment := score[p.index]?.getD p.segment }

/-- In a score with as many segments, the same stretches are on the way. -/
theorem Passage.between_inScore (hlength : score'.length = score.length)
    (played : Option Position) (goal : Position) :
    between score' played goal = (between score played goal).map (inScore score') := by
  rw [between_eq, between_eq, List.map_filterMap]
  refine List.filterMap_congr fun i _ => ?_
  rcases Nat.lt_or_ge i score.length with hlt | hge
  · have hlt' : i < score'.length := hlength ▸ hlt
    rw [List.getElem?_eq_getElem hlt, List.getElem?_eq_getElem hlt', Option.bind_some,
      Option.bind_some, within_eq, within_eq]
    by_cases hwidth : (resume played).left i < goal.right i
    · simp [if_pos hwidth, inScore, hlt']
    · rw [if_neg hwidth, if_neg hwidth]
      rfl
  · rw [List.getElem?_eq_none hge, List.getElem?_eq_none (hlength ▸ hge)]
    rfl

/-- **A performance depends on the roadmap of its score and the number of segments only.** -/
theorem perform_inScore (hlength : score'.length = score.length)
    (hroad : Roadmap.ofScore score' = Roadmap.ofScore score) (settings : Settings) :
    perform settings score' =
      { passages := (perform settings score).passages.map (Passage.inScore score')
        warnings := (perform settings score).warnings } := by
  have harrival (road : Roadmap) : arrivalPassages score' road =
      fun p => (arrivalPassages score road p).map (Passage.inScore score') := by
    funext p
    unfold arrivalPassages
    cases road[p.cursor]? with
    | none => rfl
    | some m => exact Passage.between_inScore hlength _ _
  have hclosing (trace : Trace) : closingPassages score' trace =
      (closingPassages score trace).map (Passage.inScore score') := by
    unfold closingPassages
    cases trace.ending with
    | fine => rfl
    | unsettled => rfl
    | ranOff =>
      rw [hlength]
      exact Passage.between_inScore hlength _ _
  rw [perform_eq, perform_eq, hroad]
  simp only [List.map_append, List.map_flatMap, harrival, hclosing]

end Performances

/-! ## The whole of it -/

/-- **The roadmap of a score is its only flattening**, so that scores which are only listed
otherwise have the same roadmap and the same performance, each with its own segments. -/
theorem ofScore_is_the_flattening {score : List Segment} (hscore : HasPlaces score) :
    (∀ road, Roadmap.Flattens score road ↔ road = Roadmap.ofScore score) ∧
      ∀ score', List.Forall₂ Segment.Rearranged score score' →
        Roadmap.ofScore score' = Roadmap.ofScore score ∧
          ∀ settings, perform settings score' =
            { passages := (perform settings score).passages.map (Passage.inScore score')
              warnings := (perform settings score).warnings } := by
  refine ⟨fun road => Roadmap.flattens_iff hscore, fun score' h => ?_⟩
  have hroad := Roadmap.ofScore_rearranged hscore h
  exact ⟨hroad, perform_inScore h.length_eq.symm hroad⟩

/-- A segment with a Fine and a `||:` at the two zeros, listed behind the mark at the right
edge. -/
def closeListedFirst : Segment :=
  { id := default
    marks := [{ kind := .repeatBackward 1, x := .one }, { kind := .fine, x := .zero },
      { kind := .repeatForward, x := .signedZero true }] }

/-- The segment of `closeListedFirst` with its marks listed from left to right. -/
def closeListedLast : Segment :=
  { closeListedFirst with
    marks := [{ kind := .fine, x := .zero }, { kind := .repeatForward, x := .signedZero true },
      { kind := .repeatBackward 1, x := .one }] }

/-- The Fine stays in front of the `||:`, and the mark at the right edge comes last. -/
theorem ofScore_is_the_flattening_closeListedFirst :
    HasPlaces [closeListedFirst] ∧
      List.Forall₂ Segment.Rearranged [closeListedFirst] [closeListedLast] ∧
      Roadmap.Flattens [closeListedFirst]
        (closeListedLast.marks.map fun mark => { segment := 0, mark }) ∧
      (perform {} [closeListedLast]).passages =
        (perform {} [closeListedFirst]).passages.map (Passage.inScore [closeListedLast]) := by
  have hscore : HasPlaces [closeListedFirst] := by decide
  have hrearranged : closeListedFirst.Rearranged closeListedLast := by
    constructor
    case rest => rfl
    case marks => decide
    case ties =>
      intro x
      -- nothing is at both edges
      have hedges {m n : Mark} (hm : m.At x) (hn : n.At x) : m.x.rank ≤ n.x.rank :=
        Int.le_trans hm.1.2.2 hn.2.2.2
      unfold closeListedFirst closeListedLast
      by_cases hclose : ({ kind := .repeatBackward 1, x := .one } : Mark).At x
      · have hfine : ¬ ({ kind := .fine, x := .zero } : Mark).At x := fun hfine =>
          absurd (hedges hclose hfine) (by decide)
        have hopen : ¬ ({ kind := .repeatForward, x := .signedZero true } : Mark).At x :=
          fun hopen => absurd (hedges hclose hopen) (by decide)
        simp [hclose, hfine, hopen]
      · simp [List.filter_cons, hclose]
  have hall := List.Forall₂.cons hrearranged List.Forall₂.nil
  obtain ⟨hflattens, hothers⟩ := ofScore_is_the_flattening hscore
  refine ⟨hscore, hall, (hflattens _).mpr (by decide), ?_⟩
  exact congrArg Performance.passages ((hothers [closeListedLast] hall).2 {})

end Playthrough
