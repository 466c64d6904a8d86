/-!
# Stable sorting

Insertion from the right end: each element of a list moves to the left past the
elements that it is strictly less than and stays behind the first one that it is
not less than. Elements of which neither is less than the other therefore keep
their order, and no comparison is made that this rule does not name, so the result
is determined even for a relation that orders nothing consistently.

- `stableSort_perm`: sorting rearranges.
-/

namespace Playthrough

variable {α : Type _}

/-- Puts `a` into a list that is held last element first. -/
def insertFromEnd (lt : α → α → Bool) (a : α) : List α → List α
  | [] => [a]
  | b :: before => if lt a b then b :: insertFromEnd lt a before else a :: b :: before

/-- Sorts by inserting the elements one after the other. -/
def stableSort (lt : α → α → Bool) (l : List α) : List α :=
  (l.foldl (fun sorted a => insertFromEnd lt a sorted) []).reverse

theorem insertFromEnd_perm (lt : α → α → Bool) (a : α) (l : List α) :
    (insertFromEnd lt a l).Perm (a :: l) := by
  induction l with
  | nil => exact .refl _
  | cons b l ih =>
    unfold insertFromEnd
    split
    · exact (ih.cons b).trans (.swap a b l)
    · exact .refl _

theorem foldl_insertFromEnd_perm (lt : α → α → Bool) (l sorted : List α) :
    (l.foldl (fun sorted a => insertFromEnd lt a sorted) sorted).Perm (l ++ sorted) := by
  induction l generalizing sorted with
  | nil => exact .refl _
  | cons a l ih =>
    refine (ih _).trans ?_
    refine ((insertFromEnd_perm lt a sorted).append_left l).trans ?_
    exact List.perm_middle

/-- Sorting rearranges: no element is lost, added or changed. -/
theorem stableSort_perm (lt : α → α → Bool) (l : List α) : (stableSort lt l).Perm l := by
  refine (List.reverse_perm _).trans ?_
  simpa using foldl_insertFromEnd_perm lt l []

end Playthrough
