import Mathlib.Data.Int.Order.Basic
import Mathlib.Order.Lattice
import Playthrough.Passage

/-!
# The order of places in a score

Reading from left to right, the marks of a score are met in the order of their
places. This is what makes a jump back silent: between a mark and an earlier one
there is nothing to play (`Passage.between_eq_nil`).

- `stableSort_pairwise`: sorting by a key sorts by that key;
- `stableSort_filter`: what is left out has no influence on how the rest is sorted;
- `Roadmap.ofScore_pairwise`: if every mark of a score has a place, then the marks
  of its roadmap are in the order of their places.
-/

namespace Playthrough

universe u v

variable {α : Type u} {κ : Type v} [LinearOrder κ]

/-! ## Sorting by a key -/

/-- Insertion from the end keeps a list in descending order of a key. -/
theorem insertFromEnd_pairwise (key : α → κ) (a : α) (l : List α)
    (h : l.Pairwise fun x y => key y ≤ key x) :
    (insertFromEnd (fun x y => decide (key x < key y)) a l).Pairwise
      fun x y => key y ≤ key x := by
  induction l with
  | nil => exact List.pairwise_singleton _ a
  | cons b before ih =>
    obtain ⟨hb, hbefore⟩ := List.pairwise_cons.mp h
    unfold insertFromEnd
    split
    · rename_i hlt
      have hab : key a < key b := of_decide_eq_true hlt
      refine List.pairwise_cons.mpr ⟨fun x hx => ?_, ih hbefore⟩
      rcases List.mem_cons.mp ((insertFromEnd_perm _ a before).mem_iff.mp hx) with rfl | hx
      · exact le_of_lt hab
      · exact hb x hx
    · rename_i hnlt
      have hba : key b ≤ key a := not_lt.mp fun hlt => hnlt (decide_eq_true hlt)
      refine List.pairwise_cons.mpr ⟨fun x hx => ?_, h⟩
      rcases List.mem_cons.mp hx with rfl | hx
      · exact hba
      · exact le_trans (hb x hx) hba

theorem foldl_insertFromEnd_pairwise (key : α → κ) (l sorted : List α)
    (h : sorted.Pairwise fun x y => key y ≤ key x) :
    (l.foldl (fun sorted a =>
        insertFromEnd (fun x y => decide (key x < key y)) a sorted) sorted).Pairwise
      fun x y => key y ≤ key x := by
  induction l generalizing sorted with
  | nil => exact h
  | cons a l ih => exact ih _ (insertFromEnd_pairwise key a sorted h)

/-- **Sorting by a key sorts by that key.** -/
theorem stableSort_pairwise (key : α → κ) (l : List α) :
    (stableSort (fun x y => decide (key x < key y)) l).Pairwise fun x y => key x ≤ key y :=
  List.pairwise_reverse.mpr (foldl_insertFromEnd_pairwise key l [] List.Pairwise.nil)

/-- Insertion depends only on the comparisons with the inserted element. -/
theorem insertFromEnd_congr {lt lt' : α → α → Bool} (a : α) (l : List α)
    (h : ∀ b ∈ l, lt a b = lt' a b) : insertFromEnd lt a l = insertFromEnd lt' a l := by
  induction l with
  | nil => rfl
  | cons b before ih =>
    unfold insertFromEnd
    rw [h b List.mem_cons_self, ih fun x hx => h x (List.mem_cons_of_mem b hx)]

theorem foldl_insertFromEnd_congr {lt lt' : α → α → Bool} (l sorted : List α)
    (h : ∀ a ∈ l ++ sorted, ∀ b ∈ l ++ sorted, lt a b = lt' a b) :
    l.foldl (fun sorted a => insertFromEnd lt a sorted) sorted =
      l.foldl (fun sorted a => insertFromEnd lt' a sorted) sorted := by
  induction l generalizing sorted with
  | nil => rfl
  | cons a l ih =>
    have hinsert : insertFromEnd lt a sorted = insertFromEnd lt' a sorted :=
      insertFromEnd_congr a sorted fun b hb => h a (by simp) b (by simp [hb])
    have hperm : (l ++ insertFromEnd lt' a sorted).Perm (a :: l ++ sorted) :=
      ((insertFromEnd_perm lt' a sorted).append_left l).trans List.perm_middle
    rw [List.foldl_cons, List.foldl_cons, hinsert]
    refine ih _ fun x hx y hy => ?_
    exact h x (hperm.mem_iff.mp hx) y (hperm.mem_iff.mp hy)

/-- Sorting depends only on the comparisons among the elements. -/
theorem stableSort_congr {lt lt' : α → α → Bool} {l : List α}
    (h : ∀ a ∈ l, ∀ b ∈ l, lt a b = lt' a b) : stableSort lt l = stableSort lt' l := by
  have hfold := foldl_insertFromEnd_congr l [] (by simpa using h)
  unfold stableSort
  rw [hfold]

/-- Insertion puts an element in front of what it is not less than. -/
theorem insertFromEnd_of_forall {lt : α → α → Bool} {a : α} {l : List α}
    (h : ∀ b ∈ l, lt a b = false) : insertFromEnd lt a l = a :: l := by
  cases l with
  | nil => rfl
  | cons b before => simp [insertFromEnd, h b List.mem_cons_self]

/-- What is left out of a sorted list has no influence on where the rest is inserted. -/
theorem insertFromEnd_filter (key : α → κ) (P : α → Bool) (a : α) (l : List α)
    (h : l.Pairwise fun x y => key y ≤ key x) :
    (insertFromEnd (fun x y => decide (key x < key y)) a l).filter P =
      if P a then insertFromEnd (fun x y => decide (key x < key y)) a (l.filter P)
      else l.filter P := by
  induction l with
  | nil => by_cases hP : P a <;> simp [insertFromEnd, hP]
  | cons b before ih =>
    obtain ⟨hb, hbefore⟩ := List.pairwise_cons.mp h
    by_cases hlt : key a < key b
    · have hinsert : insertFromEnd (fun x y => decide (key x < key y)) a (b :: before) =
          b :: insertFromEnd (fun x y => decide (key x < key y)) a before := by
        simp [insertFromEnd, hlt]
      rw [hinsert, List.filter_cons, List.filter_cons, ih hbefore]
      by_cases hPb : P b <;> by_cases hPa : P a <;> simp [hPb, hPa, insertFromEnd, hlt]
    · -- everything behind is not greater either
      have hfront : ∀ c ∈ b :: before, decide (key a < key c) = false := by
        intro c hc
        rcases List.mem_cons.mp hc with rfl | hc
        · simpa using hlt
        · exact decide_eq_false (not_lt.mpr (le_trans (hb c hc) (not_lt.mp hlt)))
      rw [insertFromEnd_of_forall hfront, List.filter_cons]
      by_cases hPa : P a
      · rw [if_pos hPa, if_pos hPa,
          insertFromEnd_of_forall fun c hc => hfront c (List.mem_filter.mp hc).1]
      · rw [if_neg hPa, if_neg hPa]

theorem foldl_insertFromEnd_filter (key : α → κ) (P : α → Bool) (l sorted : List α)
    (h : sorted.Pairwise fun x y => key y ≤ key x) :
    (l.foldl (fun sorted a =>
        insertFromEnd (fun x y => decide (key x < key y)) a sorted) sorted).filter P =
      (l.filter P).foldl (fun sorted a =>
        insertFromEnd (fun x y => decide (key x < key y)) a sorted) (sorted.filter P) := by
  induction l generalizing sorted with
  | nil => rfl
  | cons a l ih =>
    rw [List.foldl_cons, ih _ (insertFromEnd_pairwise key a sorted h),
      insertFromEnd_filter key P a _ h]
    by_cases hP : P a <;> simp [hP]

/-- **What is left out of a list has no influence on how the rest is sorted.** -/
theorem stableSort_filter (key : α → κ) (P : α → Bool) (l : List α) :
    (stableSort (fun x y => decide (key x < key y)) l).filter P =
      stableSort (fun x y => decide (key x < key y)) (l.filter P) := by
  have hfold := foldl_insertFromEnd_filter key P l [] List.Pairwise.nil
  unfold stableSort
  rw [List.filter_reverse, hfold]
  rfl

theorem insertFromEnd_map {β : Type u} (f : α → β) (lt : β → β → Bool) (a : α) (l : List α) :
    (insertFromEnd (fun x y => lt (f x) (f y)) a l).map f = insertFromEnd lt (f a) (l.map f) := by
  induction l with
  | nil => rfl
  | cons b before ih =>
    by_cases hlt : lt (f a) (f b) <;> simp [insertFromEnd, hlt, ih]

/-- What is not compared has no influence on the sorting. -/
theorem stableSort_map {β : Type u} (f : α → β) (lt : β → β → Bool) (l : List α) :
    (stableSort (fun x y => lt (f x) (f y)) l).map f = stableSort lt (l.map f) := by
  have hfold (sorted : List α) :
      (l.foldl (fun sorted a => insertFromEnd (fun x y => lt (f x) (f y)) a sorted) sorted).map f =
        (l.map f).foldl (fun sorted a => insertFromEnd lt a sorted) (sorted.map f) := by
    induction l generalizing sorted with
    | nil => rfl
    | cons a l ih => rw [List.foldl_cons, ih, insertFromEnd_map, List.map_cons, List.foldl_cons]
  unfold stableSort
  rw [List.map_reverse, hfold]
  rfl

/-! ## Places -/

/-- A position is at or before another one if its segment comes first, or if it is in
the same segment and not further to the right. -/
instance : LE Position :=
  ⟨fun p q => p.segment < q.segment ∨ (p.segment = q.segment ∧ p.x ≤ q.x)⟩

theorem Binary64.lt_irrefl (a : Binary64) : ¬ a < a := fun h => by
  obtain ⟨-, -, h⟩ := h
  omega

theorem Binary64.not_lt_of_le {a b : Binary64} (h : a ≤ b) : ¬ b < a := fun h' => by
  obtain ⟨-, -, h⟩ := h
  obtain ⟨-, -, h'⟩ := h'
  omega

/-- Things that have places are sorted by the ranks of their places. -/
theorem stableSort_lt (x : α → Binary64) {l : List α} (h : ∀ a ∈ l, (x a).isNaN = false) :
    stableSort (fun a b => decide (x a < x b)) l =
      stableSort (fun a b => decide ((x a).rank < (x b).rank)) l := by
  refine stableSort_congr fun a ha b hb => ?_
  simp [Binary64.lt_iff, h a ha, h b hb]

/-- Every mark of the score has a place: none is put at a NaN. -/
def HasPlaces (score : List Segment) : Prop :=
  ∀ s ∈ score, ∀ m ∈ s.marks, m.x.isNaN = false

instance (score : List Segment) : Decidable (HasPlaces score) :=
  inferInstanceAs (Decidable (∀ s ∈ score, ∀ m ∈ s.marks, m.x.isNaN = false))

namespace Passage

/-- **There is nothing to play up to a position that is not behind**, in a segment
that is finished or at a place that is reached. -/
theorem between_eq_nil_of_segment_le {score : List Segment} {p goal : Position}
    (h : goal.segment ≤ p.segment)
    (hx : goal.segment = p.segment → ¬ p.x < goal.x) : between score (some p) goal = [] := by
  unfold between
  by_cases hend : Binary64.one ≤ p.x
  · -- the segment of `p` is finished, and the next one is behind the goal
    have hstart : resume (some p) = { segment := p.segment + 1, x := .zero } := if_pos hend
    have hcount : goal.segment + 1 - (p.segment + 1) = 0 := by omega
    simp [hstart, hcount]
  · have hstart : resume (some p) = p := if_neg hend
    rw [hstart]
    rcases Nat.lt_or_eq_of_le h with hlt | heq
    · have hcount : goal.segment + 1 - p.segment = 0 := by omega
      simp [hcount]
    · -- both are in one segment, which has no width between them
      refine List.filterMap_eq_nil_iff.mpr ?_
      rintro ⟨s, index⟩ hmem
      have hindex : index = p.segment := by
        have hlo := List.le_snd_of_mem_zipIdx hmem
        have hhi := List.snd_lt_of_mem_zipIdx hmem
        have hlen := List.length_take_le (goal.segment + 1 - p.segment)
          (score.drop p.segment)
        simp only at hlo hhi
        omega
      have hnot := hx heq
      simp [within, hindex, heq, hnot]

/-- A jump back is silent. -/
theorem between_eq_nil {score : List Segment} {p goal : Position} (h : goal ≤ p) :
    between score (some p) goal = [] := by
  refine between_eq_nil_of_segment_le ?_ fun hseg => ?_
  · rcases h with h | ⟨h, -⟩
    · exact Nat.le_of_lt h
    · exact Nat.le_of_eq h
  · rcases h with h | ⟨-, h⟩
    · omega
    · exact Binary64.not_lt_of_le h

/-- Nothing is played where the music already is. -/
theorem between_self (score : List Segment) (p : Position) : between score (some p) p = [] :=
  between_eq_nil_of_segment_le (Nat.le_refl _) fun _ => Binary64.lt_irrefl p.x

end Passage

/-! ## The order of a roadmap -/

namespace Roadmap

theorem marksInOrder_perm (s : Segment) : (marksInOrder s).Perm s.marks :=
  stableSort_perm _ s.marks

/-- Within a segment the marks are met from left to right. -/
theorem marksInOrder_pairwise {s : Segment} (h : ∀ m ∈ s.marks, m.x.isNaN = false) :
    (marksInOrder s).Pairwise fun a b => a.x ≤ b.x := by
  have hrank : marksInOrder s =
      stableSort (fun a b => decide (a.x.rank < b.x.rank)) s.marks := stableSort_lt Mark.x h
  have hsorted : (marksInOrder s).Pairwise fun a b => a.x.rank ≤ b.x.rank := by
    rw [hrank]
    exact stableSort_pairwise (fun m : Mark => m.x.rank) s.marks
  refine hsorted.imp_of_mem fun {a b} ha hb hab => ?_
  exact ⟨h a ((marksInOrder_perm s).mem_iff.mp ha), h b ((marksInOrder_perm s).mem_iff.mp hb),
    hab⟩

/-- The marks of the segments from index `first` on, in reading order. -/
theorem flatMap_zipIdx_pairwise {score : List Segment} (h : HasPlaces score) (first : Nat) :
    ((score.zipIdx first).flatMap fun (s, index) =>
        (marksInOrder s).map fun mark =>
          ({ segment := index, mark } : PlacedMark)).Pairwise
      fun a b => a.position ≤ b.position := by
  induction score generalizing first with
  | nil => exact List.Pairwise.nil
  | cons s rest ih =>
    rw [List.zipIdx_cons, List.flatMap_cons]
    refine List.pairwise_append.mpr ⟨?_, ih (fun t ht => h t (List.mem_cons_of_mem s ht)) _, ?_⟩
    · refine List.pairwise_map.mpr ?_
      exact (marksInOrder_pairwise (h s List.mem_cons_self)).imp fun hx => .inr ⟨rfl, hx⟩
    · -- every other mark is in a later segment
      intro a ha b hb
      obtain ⟨m, -, rfl⟩ := List.mem_map.mp ha
      obtain ⟨⟨t, index⟩, ht, hb⟩ := List.mem_flatMap.mp hb
      obtain ⟨n, -, rfl⟩ := List.mem_map.mp hb
      have hindex : first + 1 ≤ index := List.le_snd_of_mem_zipIdx ht
      exact .inl hindex

/-- **The marks of a roadmap are in the order of their places.** -/
theorem ofScore_pairwise {score : List Segment} (h : HasPlaces score) :
    (ofScore score).Pairwise fun a b => a.position ≤ b.position :=
  flatMap_zipIdx_pairwise h 0

/-- A mark of a roadmap is drawn on the segment that it is placed on. -/
theorem exists_segment_of_mem {score : List Segment} {m : PlacedMark} (h : m ∈ ofScore score) :
    ∃ s, score[m.segment]? = some s ∧ m.mark ∈ s.marks := by
  obtain ⟨⟨s, index⟩, hs, hm⟩ := List.mem_flatMap.mp h
  obtain ⟨mark, hmark, rfl⟩ := List.mem_map.mp hm
  exact ⟨s, List.mem_zipIdx_iff_getElem?.mp hs, (marksInOrder_perm s).mem_iff.mp hmark⟩

theorem segment_lt_of_mem {score : List Segment} {m : PlacedMark} (h : m ∈ ofScore score) :
    m.segment < score.length := by
  obtain ⟨s, hs, -⟩ := exists_segment_of_mem h
  exact (List.getElem?_eq_some_iff.mp hs).1

/-- A mark that is met earlier is not further to the right. -/
theorem position_le_of_lt {score : List Segment} (h : HasPlaces score) {i j : Nat}
    {a b : PlacedMark} (ha : (ofScore score)[i]? = some a) (hb : (ofScore score)[j]? = some b)
    (hij : i < j) : a.position ≤ b.position := by
  obtain ⟨hi, rfl⟩ := List.getElem?_eq_some_iff.mp ha
  obtain ⟨hj, rfl⟩ := List.getElem?_eq_some_iff.mp hb
  exact List.pairwise_iff_getElem.mp (ofScore_pairwise h) i j hi hj hij

end Roadmap

end Playthrough
