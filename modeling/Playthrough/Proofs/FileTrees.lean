import Playthrough.Files.Tree

/-!
# Writing into a file tree

A write that succeeds puts the text into one file and leaves every other file and directory as it
was; a write that fails, and every reading, leaves them all as they were.

- `FileAccess.Careful`: access that changes nothing unless it is to;
- `FileTree.entry?_written`: what is where after a write;
- `FileTree.read_write`: what was written is read.
-/

namespace Playthrough

namespace FileTree

variable {tree tree' : FileTree} {place place' : Place} {steps other : List String}
  {name path content : String}

/-! ## Access -/

theorem directory_of_step (h : tree.step (.inside steps) name = .ok place') :
    tree.entry? steps = some .directory := by
  cases hentry : tree.entry? steps with
  | none => simp only [step, hentry, reduceCtorEq] at h
  | some entry =>
    cases entry with
    | text content => simp only [step, hentry, reduceCtorEq] at h
    | binary => simp only [step, hentry, reduceCtorEq] at h
    | directory => rfl

/-- From a directory the way goes on by the name alone. -/
theorem step_of_directory (h : tree.entry? steps = some .directory) (name : String) :
    tree.step (.inside steps) name =
      .ok (if name == "." then .inside steps
        else if name == ".." then
          if steps.isEmpty then .outside else .inside steps.dropLast
        else .inside (steps ++ [name])) := by
  simp only [step, h]
  split
  · rfl
  · split <;> rfl

/-- Where one tree has directories, another one that has them too is gone through the same way. -/
theorem step_mono (hdirectories : ∀ steps, tree.entry? steps = some .directory →
    tree'.entry? steps = some .directory) (h : tree.step place name = .ok place') :
    tree'.step place name = .ok place' := by
  cases place with
  | outside => exact h
  | inside steps =>
    have hentry := directory_of_step h
    rw [step_of_directory hentry] at h
    rw [step_of_directory (hdirectories steps hentry), h]

/-- What is passed on the way to a place are directories. -/
def Place.Passable (tree : FileTree) : Place → Prop
  | .inside steps => ∀ front, front <+: steps → front ≠ steps → tree.entry? front = some .directory
  | .outside => True

/-- One step on leads through directories. -/
theorem passable_step (h : tree.step place name = .ok place') (hplace : place.Passable tree) :
    place'.Passable tree := by
  cases place with
  | outside =>
    by_cases hname : (name == "." || name == "..") = true
    · rw [step, if_pos hname] at h
      obtain rfl := Except.ok.inj h
      trivial
    · rw [step, if_neg hname] at h
      cases h
  | inside steps =>
    have hentry := directory_of_step h
    rw [step_of_directory hentry] at h
    obtain rfl := Except.ok.inj h
    by_cases hstay : (name == ".") = true
    · rw [if_pos hstay]
      exact hplace
    · rw [if_neg hstay]
      by_cases hup : (name == "..") = true
      · rw [if_pos hup]
        by_cases hempty : steps.isEmpty = true
        · rw [if_pos hempty]
          trivial
        · rw [if_neg hempty]
          rintro front hfront hne
          refine hplace front (hfront.trans (List.dropLast_prefix steps)) ?_
          rintro rfl
          -- all of the steps are no beginning of fewer of them
          have hle := hfront.length_le
          have hpos : 0 < front.length :=
            List.length_pos_iff.mpr fun hnil => hempty (List.isEmpty_iff.mpr hnil)
          rw [List.length_dropLast] at hle
          omega
      · rw [if_neg hup]
        rintro front hfront hne
        rcases List.prefix_concat_iff.mp hfront with heq | hfront
        · exact absurd heq hne
        · by_cases heq : front = steps
          · rw [heq]
            exact hentry
          · exact hplace front hfront heq

theorem foldlM_mono (hdirectories : ∀ steps, tree.entry? steps = some .directory →
    tree'.entry? steps = some .directory) {names : List String}
    (h : names.foldlM tree.step place = .ok place') :
    names.foldlM tree'.step place = .ok place' := by
  induction names generalizing place with
  | nil => exact h
  | cons name names ih =>
    rw [List.foldlM_cons] at h ⊢
    cases hstep : tree.step place name with
    | error reason =>
      rw [hstep] at h
      cases h
    | ok next =>
      rw [hstep] at h
      rw [step_mono hdirectories hstep]
      exact ih h

theorem passable_foldlM {names : List String} (h : names.foldlM tree.step place = .ok place')
    (hplace : place.Passable tree) : place'.Passable tree := by
  induction names generalizing place with
  | nil =>
    obtain rfl := Except.ok.inj h
    exact hplace
  | cons name names ih =>
    rw [List.foldlM_cons] at h
    cases hstep : tree.step place name with
    | error reason =>
      rw [hstep] at h
      cases h
    | ok next =>
      rw [hstep] at h
      exact ih h (passable_step hstep hplace)

/-- Where a path starts. -/
def startOf (path : String) : Place :=
  if path.toList.head? == some '/' then .outside else .inside []

theorem locate_eq (tree : FileTree) (path : String) :
    tree.locate path =
      if path.isEmpty then .error .notFound
      else (path.splitOn "/" |>.filter (· ≠ "")).foldlM tree.step (startOf path) := rfl

theorem passable_startOf (tree : FileTree) (path : String) : (startOf path).Passable tree := by
  unfold startOf
  split
  · trivial
  · rintro front hfront hne
    exact absurd (List.prefix_nil.mp hfront) hne

theorem passable_locate (h : tree.locate path = .ok place) : place.Passable tree := by
  rw [locate_eq] at h
  split at h
  · cases h
  · exact passable_foldlM h (passable_startOf tree path)

theorem locate_mono (hdirectories : ∀ steps, tree.entry? steps = some .directory →
    tree'.entry? steps = some .directory) (h : tree.locate path = .ok place) :
    tree'.locate path = .ok place := by
  rw [locate_eq] at h ⊢
  by_cases hempty : path.isEmpty = true
  · rw [if_pos hempty] at h
    cases h
  · rw [if_neg hempty] at h ⊢
    exact foldlM_mono hdirectories h

/-! ## Writing -/

/-- The tree with a text at a place. -/
def written (tree : FileTree) (steps : List String) (content : String) : FileTree :=
  { entries := (steps, .text content) :: tree.entries.filter (·.1 ≠ steps) }

/-- What a write that succeeds does. -/
theorem of_write_eq_ok (h : tree.write path content = .ok tree') :
    ∃ steps, tree.locate path = .ok (.inside steps) ∧ meansDirectory path = false ∧
      tree.entry? steps ≠ some .directory ∧ tree' = tree.written steps content := by
  unfold write at h
  cases hlocate : tree.locate path with
  | error reason =>
    rw [hlocate] at h
    cases h
  | ok place =>
    rw [hlocate] at h
    cases place with
    | outside => cases h
    | inside steps =>
      by_cases hdirectory : (meansDirectory path || tree.entry? steps == some .directory) = true
      · exact nomatch (if_pos hdirectory).symm.trans h
      · obtain rfl := Except.ok.inj ((if_neg hdirectory).symm.trans h)
        obtain ⟨hpath, hentry⟩ := Bool.or_eq_false_iff.mp (Bool.not_eq_true _ ▸ hdirectory)
        exact ⟨steps, rfl, hpath, beq_eq_false_iff_ne.mp hentry, rfl⟩

theorem lookup_filter_ne {β : Type} {l : List (List String × β)} (h : other ≠ steps) :
    (l.filter (·.1 ≠ steps)).lookup other = l.lookup other := by
  induction l with
  | nil => rfl
  | cons x l ih =>
    obtain ⟨front, b⟩ := x
    by_cases hfront : front = steps
    · have hother : (other == front) = false := beq_eq_false_iff_ne.mpr (hfront ▸ h)
      rw [List.filter_cons_of_neg (by simp [hfront]), ih, List.lookup_cons, hother]
    · rw [List.filter_cons_of_pos (by simp [hfront]), List.lookup_cons, List.lookup_cons, ih]

/-- Below a place that is not on the way to the written one, there is what there was. -/
theorem any_written (h : ¬ other <+: steps) :
    (tree.written steps content).entries.any (other.isPrefixOf ·.1) =
      tree.entries.any (other.isPrefixOf ·.1) := by
  have hnot : other.isPrefixOf steps = false :=
    Bool.eq_false_iff.mpr fun hprefix => h (List.isPrefixOf_iff_prefix.mp hprefix)
  show (other.isPrefixOf steps || (tree.entries.filter (·.1 ≠ steps)).any _) = _
  rw [hnot, Bool.false_or, List.any_filter]
  refine List.any_congr rfl fun x => ?_
  by_cases hx : x.1 = steps
  · simp [hx, hnot]
  · simp [hx]

/-- **A write puts the text into one file and leaves everything else as it was.** -/
theorem entry?_written (hplace : (Place.inside steps).Passable tree) (content : String)
    (other : List String) :
    entry? (tree.written steps content) other =
      if other = steps then some (.text content) else tree.entry? other := by
  by_cases hother : other = steps
  · rw [if_pos hother, hother]
    have hlookup : (tree.written steps content).entries.lookup steps = some (.text content) :=
      List.lookup_cons_self
    unfold entry?
    rw [hlookup]
    rfl
  · rw [if_neg hother]
    have hlookup : (tree.written steps content).entries.lookup other =
        tree.entries.lookup other := by
      have hne : (other == steps) = false := beq_eq_false_iff_ne.mpr hother
      show ((steps, FileEntry.text content) :: _).lookup other = _
      rw [List.lookup_cons, hne]
      exact lookup_filter_ne hother
    by_cases hprefix : other <+: steps
    · -- the places on the way were directories before, and still are
      have hentry := hplace other hprefix hother
      have hany : (tree.written steps content).entries.any (other.isPrefixOf ·.1) = true :=
        List.any_eq_true.mpr ⟨_, List.mem_cons_self, List.isPrefixOf_iff_prefix.mpr hprefix⟩
      rw [hentry]
      unfold entry? at hentry ⊢
      rw [hlookup, hany, Bool.or_true, if_pos rfl]
      cases hfound : tree.entries.lookup other with
      | none => rfl
      | some entry =>
        rw [hfound] at hentry
        exact hentry
    · unfold entry?
      rw [hlookup, any_written hprefix]

/-- **What was written is read.** -/
theorem read_write (h : tree.write path content = .ok tree') : tree'.read path = .ok content := by
  obtain ⟨steps, hlocate, hpath, hentry, rfl⟩ := of_write_eq_ok h
  have hplace := entry?_written (passable_locate hlocate) content
  have hlocate' : (tree.written steps content).locate path = .ok (.inside steps) := by
    refine locate_mono (fun front hfront => ?_) hlocate
    have hne : front ≠ steps := by
      rintro rfl
      exact hentry hfront
    rw [hplace, if_neg hne]
    exact hfront
  have hwritten : entry? (tree.written steps content) steps = some (.text content) := by
    rw [hplace, if_pos rfl]
  simp only [read, hlocate', bind, Except.bind, hwritten, hpath]
  rfl

end FileTree

end Playthrough
