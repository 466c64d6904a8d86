import Playthrough.Proofs.Settled

/-!
# Larger budgets

A budget only cuts a performance off. With a larger one the performance begins with the same
arrivals, and once it comes to its end by itself, it stays as it is:

- `arrivals_extended`: arrivals are only added at the end;
- `run_add_of_settled`: behind an end there is nothing to spend a budget on;
- `perform_of_larger_budget`: the same for what is played. What rests on this is that a
  performance that is broken off plays nothing behind its last arrival.
-/

namespace Playthrough

/-- A larger factor gives no smaller budget. -/
theorem Settings.budget_mono {smaller larger : Settings}
    (h : smaller.iterationFactor ≤ larger.iterationFactor) (marks : Nat) :
    smaller.budget marks ≤ larger.budget marks := by
  have hfactor : max smaller.iterationFactor 1 ≤ max larger.iterationFactor 1 := by omega
  have hproduct := Nat.mul_le_mul_left marks hfactor
  unfold budget
  omega

namespace Performer

variable {road : Roadmap} {p : Performer} {budget : Nat}

/-- With a larger budget, arrivals are only added at the end. -/
theorem arrivals_extended (road : Roadmap) (budget extra : Nat) (p : Performer) :
    (p.run road budget).arrivals <+: (p.run road (budget + extra)).arrivals := by
  induction budget generalizing p with
  | zero =>
    cases hm : road[p.cursor]? with
    | none =>
      rw [run_of_none hm]
      exact List.nil_prefix
    | some m =>
      rw [run_zero hm]
      exact List.nil_prefix
  | succ budget ih =>
    rw [Nat.succ_add]
    cases hm : road[p.cursor]? with
    | none =>
      rw [run_of_none hm]
      exact List.nil_prefix
    | some m =>
      cases hnext : p.next? road with
      | none =>
        obtain ⟨_, _, -, hrun⟩ := run_of_next?_eq_none hm hnext
        refine ⟨[], ?_⟩
        rw [hrun, hrun, List.append_nil]
      | some q =>
        obtain ⟨_, -, hrun⟩ := run_of_next? hnext
        rw [hrun, hrun]
        exact List.cons_prefix_cons.mpr ⟨rfl, ih q⟩

/-- A performance that comes to its end by itself is the same with any larger budget. -/
theorem run_add_of_settled (h : (p.run road budget).ending ≠ .unsettled) (extra : Nat) :
    p.run road (budget + extra) = p.run road budget := by
  induction budget generalizing p with
  | zero =>
    cases hm : road[p.cursor]? with
    | none => rw [run_of_none hm, run_of_none hm]
    | some m =>
      rw [run_zero hm] at h
      exact absurd rfl h
  | succ budget ih =>
    rw [Nat.succ_add]
    cases hm : road[p.cursor]? with
    | none => rw [run_of_none hm, run_of_none hm]
    | some m =>
      cases hnext : p.next? road with
      | none =>
        obtain ⟨_, _, -, hrun⟩ := run_of_next?_eq_none hm hnext
        rw [hrun, hrun]
      | some q =>
        obtain ⟨_, -, hrun⟩ := run_of_next? hnext
        rw [hrun] at h
        rw [hrun, hrun, ih h]

end Performer

open Performer

variable {score : List Segment}

/-- The music of a performance and of one that has the same arrivals and some more. -/
theorem passages_extended {first second : Trace} (road : Roadmap)
    (hending : first.ending = .unsettled) (h : first.arrivals <+: second.arrivals) :
    first.arrivals.flatMap (arrivalPassages score road) ++ closingPassages score first <+:
      second.arrivals.flatMap (arrivalPassages score road) ++ closingPassages score second := by
  obtain ⟨rest, hrest⟩ := h
  have hclosing : closingPassages score first = [] := by
    simp only [closingPassages, hending]
  rw [hclosing, List.append_nil, ← hrest, List.flatMap_append, List.append_assoc]
  exact List.prefix_append _ _

/-- **A larger budget only extends a performance**, and does not change one that was not broken
off. -/
theorem perform_of_larger_budget (smaller larger : Settings) (score : List Segment)
    (h : smaller.iterationFactor ≤ larger.iterationFactor) :
    (perform smaller score).passages <+: (perform larger score).passages ∧
      (Warning.unsettled ∉ (perform smaller score).warnings →
        Warning.unsettled ∉ (perform larger score).warnings ∧
          (perform larger score).passages = (perform smaller score).passages) := by
  obtain ⟨extra, hextra⟩ := Nat.exists_eq_add_of_le
    (Settings.budget_mono h (Roadmap.ofScore score).length)
  rw [perform_eq, perform_eq]
  dsimp only
  rw [hextra]
  constructor
  · by_cases hending : (({} : Performer).run (Roadmap.ofScore score)
        (smaller.budget (Roadmap.ofScore score).length)).ending = .unsettled
    · exact passages_extended _ hending (arrivals_extended _ _ _ _)
    · refine ⟨[], ?_⟩
      rw [run_add_of_settled hending extra, List.append_nil]
  · intro hquiet
    rw [run_add_of_settled (fun hending => hquiet (unsettled_mem_warnings hending)) extra]
    exact ⟨hquiet, rfl⟩

/-- One segment to be played six times, which takes twelve arrivals at its two marks. -/
def sixTimes : List Segment :=
  [{ id := default, marks := [{ kind := .repeatForward, x := .zero },
    { kind := .repeatBackward 5, x := .one }] }]

/-- With four arrivals the segment is played twice, and twelve are enough for all six times. -/
theorem perform_of_larger_budget_sixTimes :
    Warning.unsettled ∈ (perform { iterationFactor := 2 } sixTimes).warnings ∧
      (perform { iterationFactor := 2 } sixTimes).passages <+:
        (perform { iterationFactor := 6 } sixTimes).passages ∧
      Warning.unsettled ∉ (perform { iterationFactor := 6 } sixTimes).warnings ∧
      (perform {} sixTimes).passages = (perform { iterationFactor := 6 } sixTimes).passages := by
  have hbroken : Warning.unsettled ∈ (perform { iterationFactor := 2 } sixTimes).warnings := by
    decide
  have hsettled : Warning.unsettled ∉ (perform { iterationFactor := 6 } sixTimes).warnings := by
    decide
  obtain ⟨hextended, -⟩ := perform_of_larger_budget { iterationFactor := 2 }
    { iterationFactor := 6 } sixTimes (by decide)
  obtain ⟨-, hsame⟩ := perform_of_larger_budget { iterationFactor := 6 } {} sixTimes (by decide)
  exact ⟨hbroken, hextended, hsettled, (hsame hsettled).2⟩

example : (perform { iterationFactor := 2 } sixTimes).passages.length = 2 ∧
    (perform {} sixTimes).passages.length = 6 := by decide

end Playthrough
