import Mathlib.Data.List.Basic
import Playthrough.Proofs.Places

/-!
# The passages between two positions

`Passage.between` walks through the segments from one position to another. Told by the
indices of these segments (`between_eq`), it has the laws that one expects of a stretch of
music: it does not see segments behind the goal (`between_append_left`), it moves along with
the score when segments are put in front (`between_append_right`), and where two scores are
put together it parts into the end of the first and the beginning of the second
(`between_append_seam`).
-/

namespace Playthrough

universe u v

/-- A filtered stretch of a list, told by its indices. -/
theorem filterMap_zipIdx_take_drop {α : Type u} {β : Type v} (f : α × Nat → Option β)
    (l : List α) (s n : Nat) :
    (((l.drop s).take n).zipIdx s).filterMap f =
      (List.range' s n).filterMap fun i => l[i]?.bind fun a => f (a, i) := by
  induction n generalizing s with
  | zero => simp
  | succ n ih =>
    rw [List.range'_succ, List.filterMap_cons]
    rcases Nat.lt_or_ge s l.length with hlt | hge
    · rw [List.drop_eq_getElem_cons hlt, List.take_succ_cons, List.zipIdx_cons,
        List.filterMap_cons, ih (s + 1), List.getElem?_eq_getElem hlt]
      rfl
    · have hnone : l[s]? = none := List.getElem?_eq_none hge
      have hrest :
          ((List.range' (s + 1) n).filterMap fun i => l[i]?.bind fun a => f (a, i)) = [] := by
        refine List.filterMap_eq_nil_iff.mpr fun i hi => ?_
        have hle : l.length ≤ i := Nat.le_trans (Nat.le_succ_of_le hge) (List.mem_range'_1.mp hi).1
        rw [List.getElem?_eq_none hle]
        rfl
      rw [List.drop_eq_nil_of_le hge, hnone, hrest]
      rfl

/-- The position so many segments further on. -/
def Position.later (n : Nat) (p : Position) : Position := { p with segment := p.segment + n }

namespace Passage

variable {A B : List Segment} {p goal : Position} {played : Option Position}

/-- The passage so many segments further on. -/
def later (n : Nat) (p : Passage) : Passage := { p with index := p.index + n }

/-- The music between two positions, told by the indices of the segments. -/
theorem between_eq (score : List Segment) (played : Option Position) (goal : Position) :
    between score played goal =
      (List.range' (resume played).segment (goal.segment + 1 - (resume played).segment)).filterMap
        fun i => score[i]?.bind fun s => within (resume played) goal s i :=
  filterMap_zipIdx_take_drop (fun x => within (resume played) goal x.1 x.2) score _ _

/-- Music that goes on after a position begins in its segment, or at the beginning of the next
one. -/
theorem resume_cases (h : ∀ p, played = some p → p.segment < A.length) (hne : A ≠ []) :
    (resume played).segment < A.length ∨
      resume played = { segment := A.length, x := .zero } := by
  have hpos := List.length_pos_iff.mpr hne
  cases played with
  | none => exact .inl hpos
  | some p =>
    have hp := h p rfl
    unfold resume
    dsimp only
    split
    · rcases Nat.lt_or_eq_of_le hp with hlt | heq
      · exact .inl hlt
      · exact .inr (by rw [← heq])
    · exact .inl hp

/-- What is put behind a score is not played on the way to a position of it. -/
theorem between_append_left (h : goal.segment < A.length) :
    between (A ++ B) played goal = between A played goal := by
  rw [between_eq, between_eq]
  refine List.filterMap_congr fun i hi => ?_
  obtain ⟨hge, hlt⟩ := List.mem_range'_1.mp hi
  have hin : i < A.length := by omega
  rw [List.getElem?_append_left hin]

theorem resume_later (n : Nat) (p : Position) :
    resume (some (p.later n)) = (resume (some p)).later n := by
  unfold resume
  by_cases hend : Binary64.one ≤ p.x
  · have hend' : Binary64.one ≤ (p.later n).x := hend
    simp only [if_pos hend, if_pos hend']
    simp only [Position.later, Nat.add_right_comm]
  · have hend' : ¬ Binary64.one ≤ (p.later n).x := hend
    simp only [if_neg hend, if_neg hend']

/-- Within a segment the music moves along with the score. -/
theorem within_later (n : Nat) (start goal : Position) (s : Segment) (i : Nat) :
    within (start.later n) (goal.later n) s (i + n) = (within start goal s i).map (later n) := by
  simp only [within, Position.later, Nat.add_right_cancel_iff]
  -- the width of the passage is the same on both sides
  by_cases hlt : (if i = start.segment then start.x else Binary64.zero) <
      if i = goal.segment then goal.x else Binary64.one
  · rw [if_pos hlt, if_pos hlt]
    rfl
  · rw [if_neg hlt, if_neg hlt]
    rfl

/-- Segments that are put in front move the music to later segments. -/
theorem filterMap_later (start goal : Position) (first count : Nat) :
    ((List.range' (first + A.length) count).filterMap fun i =>
        (A ++ B)[i]?.bind fun s => within (start.later A.length) (goal.later A.length) s i) =
      ((List.range' first count).filterMap fun i =>
        B[i]?.bind fun s => within start goal s i).map (later A.length) := by
  have hrange : List.range' (first + A.length) count =
      (List.range' first count).map fun i => i + A.length := by
    rw [Nat.add_comm, ← List.map_add_range']
    exact List.map_congr_left fun i _ => Nat.add_comm _ _
  rw [hrange, List.filterMap_map, List.map_filterMap]
  refine List.filterMap_congr fun i _ => ?_
  have hget : (A ++ B)[i + A.length]? = B[i]? := by
    rw [List.getElem?_append_right (Nat.le_add_left _ _), Nat.add_sub_cancel]
  simp only [Function.comp_apply, hget]
  cases B[i]? with
  | none => rfl
  | some s => exact within_later A.length start goal s i

/-- What is put in front of a score is not played between positions of it. -/
theorem between_append_right :
    between (A ++ B) (some (p.later A.length)) (goal.later A.length) =
      (between B (some p) goal).map (later A.length) := by
  rw [between_eq, between_eq, resume_later, ← filterMap_later]
  have hcount : (goal.later A.length).segment + 1 - ((resume (some p)).later A.length).segment =
      goal.segment + 1 - (resume (some p)).segment := by
    simp only [Position.later]
    omega
  rw [hcount]
  rfl

/-- **The music across a seam** is the end of the first score and the beginning of the second
one. -/
theorem between_append_seam (h : ∀ p, played = some p → p.segment < A.length) (hne : A ≠ []) :
    between (A ++ B) played (goal.later A.length) =
      between A played (Position.endOf (A.length - 1)) ++
        (between B none goal).map (later A.length) := by
  have hpos := List.length_pos_iff.mpr hne
  have hcases := resume_cases h hne
  have hle : (resume played).segment ≤ A.length := by
    rcases hcases with hlt | heq
    · exact Nat.le_of_lt hlt
    · exact Nat.le_of_eq (congrArg Position.segment heq)
  -- the segments of the first score, and those of the second one
  have hrange : List.range' (resume played).segment
        ((goal.later A.length).segment + 1 - (resume played).segment) =
      List.range' (resume played).segment (A.length - (resume played).segment) ++
        List.range' A.length (goal.segment + 1) := by
    have hmid : A.length = (resume played).segment + (A.length - (resume played).segment) := by
      omega
    have hcount : (goal.later A.length).segment + 1 - (resume played).segment =
        A.length - (resume played).segment + (goal.segment + 1) := by
      simp only [Position.later]
      omega
    rw [hcount, ← List.range'_append_1, ← hmid]
  have hcount : (Position.endOf (A.length - 1)).segment + 1 - (resume played).segment =
      A.length - (resume played).segment := by
    simp only [Position.endOf]
    omega
  rw [between_eq, between_eq A, between_eq B, hrange, hcount, List.filterMap_append]
  congr 1
  · refine List.filterMap_congr fun i hi => ?_
    obtain ⟨-, hlt⟩ := List.mem_range'_1.mp hi
    have hin : i < A.length := by omega
    have hnot : i ≠ goal.segment + A.length := by omega
    rw [List.getElem?_append_left hin]
    congr 1
    funext s
    -- every segment of the first score is played to its right edge
    have hedge : (if i = (Position.endOf (A.length - 1)).segment
        then (Position.endOf (A.length - 1)).x else .one) = Binary64.one := ite_self _
    have hedge' : (if i = (goal.later A.length).segment
        then (goal.later A.length).x else .one) = Binary64.one := if_neg hnot
    simp only [within, hedge, hedge']
  · have hzero : (resume none).segment = 0 := rfl
    rw [hzero, Nat.sub_zero, ← filterMap_later, Nat.zero_add]
    refine List.filterMap_congr fun i hi => ?_
    obtain ⟨hge, -⟩ := List.mem_range'_1.mp hi
    congr 1
    funext s
    -- and every segment of the second one from its left edge
    have hstart : (if i = (resume played).segment then (resume played).x else .zero) = .zero := by
      rcases hcases with hlt | heq
      · rw [if_neg (by omega)]
      · rw [heq]
        exact ite_self _
    have hstart' : (if i = (Position.later A.length (resume none)).segment
        then (Position.later A.length (resume none)).x else .zero) = Binary64.zero := ite_self _
    simp only [within, hstart, hstart']

end Passage

end Playthrough
