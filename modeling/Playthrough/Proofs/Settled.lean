import Mathlib.Data.List.Basic
import Playthrough.Proofs.Course

/-!
# Settled performances

A performance that is not broken off does not depend on its budget: it is the one course of
its roadmap that goes on as long as there is a round to take. `passages_of_course` tells the
passages of a settled performance from any such course.
-/

namespace Playthrough

namespace Performer

variable {road : Roadmap} {p q a b : Performer} {l l' : List Performer}

/-! ## The last course -/

/-- From one performer there is only one course that cannot go on. -/
theorem Course.eq_of_next?_eq_none (h : Course road p l a) (h' : Course road p l' b)
    (ha : a.next? road = none) (hb : b.next? road = none) : l = l' ∧ a = b := by
  induction h generalizing l' with
  | refl p =>
    cases h' with
    | refl => exact ⟨rfl, rfl⟩
    | round hnext _ => exact nomatch ha.symm.trans hnext
  | round hnext _ ih =>
    cases h' with
    | refl => exact nomatch hb.symm.trans hnext
    | round hnext' hrest' =>
      obtain rfl := Option.some.inj (hnext.symm.trans hnext')
      obtain ⟨rfl, rfl⟩ := ih hrest' ha
      exact ⟨rfl, rfl⟩

/-- Behind the last mark there is no round to take. -/
theorem next?_eq_none_of_length_le (h : road.length ≤ p.cursor) : p.next? road = none := by
  simp [next?, List.getElem?_eq_none h]

/-- A performance that spends its budget says so. -/
theorem unsettled_mem_warnings {budget : Nat} (h : (p.run road budget).ending = .unsettled) :
    .unsettled ∈ (p.run road budget).warnings := by
  induction budget generalizing p with
  | zero =>
    cases hm : road[p.cursor]? with
    | none =>
      rw [run_of_none hm] at h
      cases h
    | some m =>
      rw [run_zero hm]
      exact List.mem_singleton_self _
  | succ budget ih =>
    cases hm : road[p.cursor]? with
    | none =>
      rw [run_of_none hm] at h
      cases h
    | some m =>
      cases hnext : p.next? road with
      | none =>
        obtain ⟨_, _, -, hrun⟩ := run_of_next?_eq_none hm hnext
        rw [hrun] at h
        cases h
      | some q =>
        obtain ⟨_, -, hrun⟩ := run_of_next? hnext
        rw [hrun] at h ⊢
        exact List.mem_append_right _ (ih h)

/-! ## Its music -/

/-- The music ahead: up to the next mark to react to, or the rest of the score if no mark is
left. -/
def musicAhead (score : List Segment) (road : Roadmap) (p : Performer) : List Passage :=
  match road[p.cursor]? with
  | some m => Passage.between score p.shown m.position
  | none => Passage.between score p.shown (Position.endOf (score.length - 1))

/-- Upon an arrival the music ahead is played. -/
theorem arrivalPassages_eq_musicAhead (score : List Segment) (hin : p.cursor < road.length) :
    arrivalPassages score road p = musicAhead score road p := by
  simp only [arrivalPassages, musicAhead, List.getElem?_eq_getElem hin]

theorem EndsAs.next?_eq_none {budget : Nat} {trace : Trace} (h : EndsAs road budget l a trace)
    (hsettled : trace.ending ≠ .unsettled) : a.next? road = none := by
  cases h with
  | ranOff _ _ _ hover => exact next?_eq_none_of_length_le (List.getElem?_eq_none_iff.mp hover)
  | unsettled hending => exact absurd hending hsettled
  | fine _ _ _ hstop => exact hstop

/-- The passages of a performance that ends by itself. -/
theorem EndsAs.passages {budget : Nat} {trace : Trace} (hcourse : Course road p l a)
    (h : EndsAs road budget l a trace) (hsettled : trace.ending ≠ .unsettled)
    (score : List Segment) :
    trace.arrivals.flatMap (arrivalPassages score road) ++ Playthrough.closingPassages score trace =
      (l ++ [a]).flatMap (musicAhead score road) := by
  have hl : l.flatMap (arrivalPassages score road) = l.flatMap (musicAhead score road) :=
    List.flatMap_congr fun b hb => arrivalPassages_eq_musicAhead score (hcourse.cursor_lt b hb)
  rw [List.flatMap_append, List.flatMap_singleton, ← hl]
  cases h with
  | ranOff hending harrivals hlast hover =>
    simp only [Playthrough.closingPassages, musicAhead, hending, harrivals, hlast, hover]
  | unsettled hending => exact absurd hending hsettled
  | fine hending harrivals hmark =>
    rw [harrivals, List.flatMap_append, List.flatMap_singleton,
      arrivalPassages_eq_musicAhead score hmark]
    simp only [Playthrough.closingPassages, hending, List.append_nil]

end Performer

open Performer

variable {settings : Settings} {score : List Segment} {l : List Performer} {a : Performer}

/-- A performance without the warning was not broken off. -/
theorem ending_ne_unsettled (hsettled : Warning.unsettled ∉ (perform settings score).warnings)
    (hne : score ≠ []) :
    (({} : Performer).run (Roadmap.ofScore score)
      (settings.budget (Roadmap.ofScore score).length)).ending ≠ .unsettled := by
  intro hending
  have hempty : score.isEmpty = false := by simpa using hne
  refine hsettled ?_
  simp only [perform, hempty, Bool.false_eq_true, if_false]
  exact unsettled_mem_warnings hending

/-- The course of a settled performance. -/
theorem exists_course_of_settled (hsettled : Warning.unsettled ∉ (perform settings score).warnings)
    (hne : score ≠ []) :
    ∃ l a, Course (Roadmap.ofScore score) {} l a ∧ a.next? (Roadmap.ofScore score) = none ∧
      EndsAs (Roadmap.ofScore score) (settings.budget (Roadmap.ofScore score).length) l a
        (({} : Performer).run (Roadmap.ofScore score)
          (settings.budget (Roadmap.ofScore score).length)) := by
  obtain ⟨l, a, hcourse, hends⟩ := run_endsAs (Roadmap.ofScore score)
    (settings.budget (Roadmap.ofScore score).length) {}
  exact ⟨l, a, hcourse, hends.next?_eq_none (ending_ne_unsettled hsettled hne), hends⟩

/-- **The passages of a settled performance** are those of any course to an end. -/
theorem passages_of_course (hsettled : Warning.unsettled ∉ (perform settings score).warnings)
    (hne : score ≠ []) (hcourse : Course (Roadmap.ofScore score) {} l a)
    (hend : a.next? (Roadmap.ofScore score) = none) :
    (perform settings score).passages =
      (l ++ [a]).flatMap (musicAhead score (Roadmap.ofScore score)) := by
  obtain ⟨l', a', hcourse', hend', hends⟩ := exists_course_of_settled hsettled hne
  obtain ⟨rfl, rfl⟩ := hcourse.eq_of_next?_eq_none hcourse' hend hend'
  have hempty : score.isEmpty = false := by simpa using hne
  simp only [perform, hempty, Bool.false_eq_true, if_false]
  exact hends.passages hcourse (ending_ne_unsettled hsettled hne) score

end Playthrough
