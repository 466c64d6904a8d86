import Mathlib.Data.List.Forall2
import Playthrough.Layout.Reader

/-!
# What documents describe

A document describes a layout if each of its marks is written down properly: with the field that
its kind cannot do without, and with no field that its kind has no use for. The layout then has
everything that is written down. Otherwise the first mark that is not written down properly is
reported, with the number of its segment.

- `firstAt_of_mapM`: of many things that are tried, the first failure counts;
- `MarkEntry.Proper`, `MarkEntry.Describes`, `MarkEntry.Reports`: what is right with an entry,
  what it stands for, and what is said about it if it is not right;
- `Document.toLayout_ofLayout`: a layout that is written down is read again;
- `Document.toLayout_as_described`: all of this for whole documents.
-/

namespace Playthrough

/-! ## Trying many things -/

section Trying

variable {α β ε : Type} {f : α → Except ε β} {l : List α}

/-- The element at this index is the first one that has a property. -/
def FirstAt (P : α → Prop) (l : List α) (i : Nat) (a : α) : Prop :=
  l[i]? = some a ∧ P a ∧ ∀ j < i, ∀ b, l[j]? = some b → ¬ P b

theorem firstAt_zero {P : α → Prop} {a : α} (h : P a) (l : List α) : FirstAt P (a :: l) 0 a :=
  ⟨rfl, h, fun _ hj => absurd hj (Nat.not_lt_zero _)⟩

theorem FirstAt.succ {P : α → Prop} {i : Nat} {a b : α} (h : FirstAt P l i a) (hb : ¬ P b) :
    FirstAt P (b :: l) (i + 1) a := by
  obtain ⟨hi, ha, hbefore⟩ := h
  refine ⟨hi, ha, fun j hj c hc => ?_⟩
  cases j with
  | zero =>
    obtain rfl : b = c := Option.some.inj hc
    exact hb
  | succ j => exact hbefore j (Nat.lt_of_succ_lt_succ hj) c hc

theorem FirstAt.imp {P Q : α → Prop} {i : Nat} {a : α} (h : FirstAt P l i a)
    (hPQ : ∀ b ∈ l, P b ↔ Q b) : FirstAt Q l i a := by
  obtain ⟨hi, ha, hbefore⟩ := h
  refine ⟨hi, (hPQ a (List.mem_of_getElem? hi)).mp ha, fun j hj b hb hQ => ?_⟩
  exact hbefore j hj b hb ((hPQ b (List.mem_of_getElem? hb)).mpr hQ)

theorem FirstAt.of_zipIdx {P : α → Prop} {i : Nat} {x : α × Nat}
    (h : FirstAt (fun y => P y.1) l.zipIdx i x) : i = x.2 ∧ FirstAt P l i x.1 := by
  obtain ⟨hi, hx, hbefore⟩ := h
  rw [List.getElem?_zipIdx, Nat.zero_add] at hi
  obtain ⟨a, ha, rfl⟩ := Option.map_eq_some_iff.mp hi
  refine ⟨rfl, ha, hx, fun j hj b hb => hbefore j hj (b, j) ?_⟩
  rw [List.getElem?_zipIdx, Nat.zero_add, hb]
  rfl

theorem mapM_cons_of_ok {a : α} {b : β} (h : f a = .ok b) :
    (a :: l).mapM f = (l.mapM f).map (b :: ·) := by
  rw [List.mapM_cons, h]
  cases l.mapM f <;> rfl

theorem mapM_cons_of_error {a : α} {e : ε} (h : f a = .error e) : (a :: l).mapM f = .error e := by
  rw [List.mapM_cons, h]
  rfl

/-- If nothing fails, every result is that of its own element. -/
theorem forall₂_of_mapM {m : List β} (h : l.mapM f = .ok m) :
    List.Forall₂ (fun a b => f a = .ok b) l m := by
  induction l generalizing m with
  | nil =>
    obtain rfl : [] = m := Except.ok.inj h
    exact .nil
  | cons a l ih =>
    cases ha : f a with
    | error e => exact nomatch (mapM_cons_of_error ha).symm.trans h
    | ok b =>
      rw [mapM_cons_of_ok ha] at h
      cases hl : l.mapM f with
      | error e => exact nomatch hl ▸ h
      | ok bs =>
        rw [hl] at h
        obtain rfl : b :: bs = m := Except.ok.inj h
        exact .cons ha (ih hl)

/-- If every element has a result of its own, nothing fails. -/
theorem mapM_of_forall₂ {m : List β} (h : List.Forall₂ (fun a b => f a = .ok b) l m) :
    l.mapM f = .ok m := by
  induction h with
  | nil => rfl
  | cons ha _ ih =>
    rw [mapM_cons_of_ok ha, ih]
    rfl

theorem exists_of_mapM {m : List β} (h : l.mapM f = .ok m) {a : α} (ha : a ∈ l) :
    ∃ b, f a = .ok b := by
  have hall := forall₂_of_mapM h
  clear h
  induction hall with
  | nil => exact absurd ha List.not_mem_nil
  | cons hc _ ih =>
    rcases List.mem_cons.mp ha with rfl | ha
    · exact ⟨_, hc⟩
    · exact ih ha

/-- **Of many things that are tried, the first failure counts.** -/
theorem firstAt_of_mapM {e : ε} (h : l.mapM f = .error e) :
    ∃ i a, FirstAt (fun b => ∃ e, f b = .error e) l i a ∧ f a = .error e := by
  induction l with
  | nil => cases h
  | cons a l ih =>
    cases ha : f a with
    | error e' =>
      obtain rfl : e' = e := Except.error.inj ((mapM_cons_of_error ha).symm.trans h)
      exact ⟨0, a, firstAt_zero ⟨e', ha⟩ l, ha⟩
    | ok b =>
      rw [mapM_cons_of_ok ha] at h
      cases hl : l.mapM f with
      | ok bs => exact nomatch hl ▸ h
      | error e' =>
        rw [hl] at h
        obtain rfl : e' = e := Except.error.inj h
        obtain ⟨i, c, hfirst, hc⟩ := ih hl
        refine ⟨i + 1, c, hfirst.succ ?_, hc⟩
        rintro ⟨e, he⟩
        exact nomatch ha.symm.trans he

end Trying

/-! ## Marks -/

/-- The order in which the fields of a mark are looked at. -/
def PayloadField.rank : PayloadField → Nat
  | times => 0
  | numbers => 1
  | label => 2

namespace MarkEntry

/-- An ending that does not say for which passes it is. -/
def LacksNumbers (entry : MarkEntry) : Prop := entry.kind = .volta ∧ entry.numbers = none

/-- The field is written down for a mark that has no use for it. -/
def Stray (entry : MarkEntry) : PayloadField → Prop
  | .times => entry.times ≠ none ∧ entry.kind ≠ .repeatBackward
  | .numbers => entry.numbers ≠ none ∧ entry.kind ≠ .volta
  | .label => entry.label ≠ none ∧ entry.kind ∉ [.segno, .coda, .dalSegno, .toCoda]

/-- The entry has the field that its kind needs, and no field that its kind has no use for. -/
structure Proper (entry : MarkEntry) : Prop where
  /-- An ending says for which passes it is. -/
  needsNumbers : entry.kind = .volta → entry.numbers ≠ none
  /-- Only a `:||` says how often it goes back. -/
  takesTimes : entry.times ≠ none → entry.kind = .repeatBackward
  /-- Only an ending says for which passes it is. -/
  takesNumbers : entry.numbers ≠ none → entry.kind = .volta
  /-- Only landmarks and what leads to them have a label. -/
  takesLabel : entry.label ≠ none → entry.kind ∈ [.segno, .coda, .dalSegno, .toCoda]

/-- The mark is what is written down: of this kind, at this place, and with what is said about
it. A `:||` of which nothing is said goes back once. -/
structure Describes (entry : MarkEntry) (mark : Mark) : Prop where
  kind : mark.kind.name = entry.kind
  x : mark.x = entry.x
  times : ∀ times, mark.kind = .repeatBackward times → times = entry.times.getD 1
  numbers : ∀ numbers, mark.kind = .volta numbers → entry.numbers = some numbers
  label : ∀ label, mark.kind ∈ [.segno label, .coda label, .dalSegno label, .toCoda label] →
    label = entry.label

/-- What is said about an entry that is not proper, and in which words: that an ending lacks its
numbers, and otherwise which field is the first one of no use. -/
inductive Reports (entry : MarkEntry) : SegmentFault → String → Prop
  | lacksNumbers (h : entry.LacksNumbers) :
    Reports entry .voltaWithoutNumbers "volta marker needs a 'numbers' list"
  | stray (h : ¬ entry.LacksNumbers) {field : PayloadField} (hstray : entry.Stray field)
      (hfirst : ∀ other, other.rank < field.rank → ¬ entry.Stray other) :
    Reports entry (.strayField entry.kind field)
      (entry.kind.text ++ " marker does not take '" ++ field.text ++ "'")

variable {entry : MarkEntry} {mark : Mark}

theorem proper_iff : entry.Proper ↔ ¬ entry.LacksNumbers ∧ ∀ field, ¬ entry.Stray field := by
  constructor
  · rintro ⟨hneeds, htimes, hnumbers, hlabel⟩
    refine ⟨fun h => hneeds h.1 h.2, ?_⟩
    rintro (_ | _ | _) ⟨hsome, hkind⟩
    · exact hkind (htimes hsome)
    · exact hkind (hnumbers hsome)
    · exact hkind (hlabel hsome)
  · rintro ⟨hlacks, hstray⟩
    constructor
    case needsNumbers => exact fun hkind hnone => hlacks ⟨hkind, hnone⟩
    case takesTimes => exact fun h => Decidable.not_not.mp fun hkind => hstray .times ⟨h, hkind⟩
    case takesNumbers =>
      exact fun h => Decidable.not_not.mp fun hkind => hstray .numbers ⟨h, hkind⟩
    case takesLabel => exact fun h => Decidable.not_not.mp fun hkind => hstray .label ⟨h, hkind⟩

theorem Reports.not_proper {fault : SegmentFault} {text : String} (h : entry.Reports fault text) :
    ¬ entry.Proper := by
  intro hproper
  obtain ⟨hlacks, hnone⟩ := proper_iff.mp hproper
  cases h with
  | lacksNumbers h => exact hlacks h
  | stray _ hstray _ => exact hnone _ hstray

/-- The two ways of telling that a field is of no use agree. -/
theorem stray_iff (entry : MarkEntry) (field : PayloadField) :
    (entry.has field && !entry.kind.takes field) = true ↔ entry.Stray field := by
  obtain ⟨kind, x, times, numbers, label⟩ := entry
  cases field
  case times => cases kind <;> cases times <;> simp [has, Stray, MarkName.takes]
  case numbers => cases kind <;> cases numbers <;> simp [has, Stray, MarkName.takes]
  case label => cases kind <;> cases label <;> simp [has, Stray, MarkName.takes]

theorem mem_fields (field : PayloadField) : field ∈ [PayloadField.times, .numbers, .label] := by
  cases field <;> decide

/-- The field that is reported is the first one of no use. -/
theorem strayField?_eq_some {field : PayloadField} (h : entry.strayField? = some field) :
    entry.Stray field ∧ ∀ other, other.rank < field.rank → ¬ entry.Stray other := by
  obtain ⟨hstray, before, after, hfields, hbefore⟩ := List.find?_eq_some_iff_append.mp h
  refine ⟨(stray_iff entry field).mp hstray, fun other hrank hother => ?_⟩
  -- the fields are looked at in their order, so those in front were found to be of use
  have hsorted : [PayloadField.times, .numbers, .label].Pairwise fun a b => a.rank < b.rank := by
    decide
  have hmem : other ∈ [PayloadField.times, .numbers, .label] := mem_fields other
  rw [hfields] at hsorted hmem
  rcases List.mem_append.mp hmem with hmem | hmem
  · have hnot := hbefore other hmem
    rw [(stray_iff entry other).mpr hother] at hnot
    cases hnot
  · rcases List.mem_cons.mp hmem with rfl | hmem
    · exact Nat.lt_irrefl _ hrank
    · have hbehind := (List.pairwise_cons.mp (List.pairwise_append.mp hsorted).2.1).1 other hmem
      exact Nat.lt_asymm hrank hbehind

theorem strayField?_eq_none (h : entry.strayField? = none) (field : PayloadField) :
    ¬ entry.Stray field := by
  intro hstray
  exact List.find?_eq_none.mp h field (mem_fields field) ((stray_iff entry field).mpr hstray)

theorem kind?_eq_none_iff : entry.kind? = none ↔ entry.LacksNumbers := by
  unfold kind? LacksNumbers
  cases entry.kind <;> simp

theorem describes_of_kind? {kind : MarkKind} (h : entry.kind? = some kind) :
    entry.Describes { kind, x := entry.x } := by
  obtain ⟨name, x, times, numbers, label⟩ := entry
  cases name
  case volta =>
    obtain ⟨l, rfl, rfl⟩ := Option.map_eq_some_iff.mp h
    constructor <;> simp [MarkKind.name]
  all_goals
    obtain rfl := Option.some.inj h
    constructor <;> simp [MarkKind.name]

/-- **An entry that is proper describes a mark, and for any other one the fault is told.** -/
theorem toMark_cases (entry : MarkEntry) :
    (∃ mark, entry.toMark = .ok mark ∧ entry.Proper ∧ entry.Describes mark) ∨
      ∃ fault, entry.toMark = .error fault ∧ entry.Reports fault fault.message := by
  cases hkind : entry.kind? with
  | none =>
    refine .inr ⟨.voltaWithoutNumbers, by simp only [toMark, hkind], ?_⟩
    exact .lacksNumbers (kind?_eq_none_iff.mp hkind)
  | some kind =>
    have hlacks : ¬ entry.LacksNumbers := fun h => by simp [kind?_eq_none_iff.mpr h] at hkind
    cases hstray : entry.strayField? with
    | none =>
      refine .inl ⟨{ kind, x := entry.x }, by simp only [toMark, hkind, hstray], ?_, ?_⟩
      · exact proper_iff.mpr ⟨hlacks, strayField?_eq_none hstray⟩
      · exact describes_of_kind? hkind
    | some field =>
      obtain ⟨hfield, hfirst⟩ := strayField?_eq_some hstray
      refine .inr ⟨.strayField entry.kind field, by simp only [toMark, hkind, hstray], ?_⟩
      exact .stray hlacks hfield hfirst

theorem of_toMark_eq_ok (h : entry.toMark = .ok mark) : entry.Proper ∧ entry.Describes mark := by
  rcases toMark_cases entry with ⟨mark', hok, hmark⟩ | ⟨fault, herror, -⟩
  · obtain rfl : mark' = mark := Except.ok.inj (hok.symm.trans h)
    exact hmark
  · exact nomatch herror.symm.trans h

theorem of_toMark_eq_error {fault : SegmentFault} (h : entry.toMark = .error fault) :
    entry.Reports fault fault.message := by
  rcases toMark_cases entry with ⟨mark, hok, -⟩ | ⟨fault', herror, hreports⟩
  · exact nomatch hok.symm.trans h
  · obtain rfl : fault' = fault := Except.error.inj (herror.symm.trans h)
    exact hreports

theorem toMark_fails_iff : (∃ fault, entry.toMark = .error fault) ↔ ¬ entry.Proper := by
  constructor
  · rintro ⟨fault, h⟩
    exact (of_toMark_eq_error h).not_proper
  · intro hproper
    rcases toMark_cases entry with ⟨mark, -, h, -⟩ | ⟨fault, h, -⟩
    · exact absurd h hproper
    · exact ⟨fault, h⟩

/-- A mark that is written down is read again. -/
theorem toMark_ofMark (mark : Mark) : (ofMark mark).toMark = .ok mark := by
  obtain ⟨kind, x⟩ := mark
  have hkind : (ofMark { kind, x }).kind? = some kind := by cases kind <;> rfl
  have hx : (ofMark { kind, x }).x = x := by cases kind <;> rfl
  have hstray : (ofMark { kind, x }).strayField? = none := by
    refine List.find?_eq_none.mpr fun field _ => ?_
    cases kind <;> cases field <;> simp [ofMark, has, MarkName.takes, MarkKind.name]
  simp only [toMark, hkind, hstray, hx]

end MarkEntry

/-! ## Segments -/

namespace SegmentEntry

/-- The segment is what is written down, with this identifier if none is written down. -/
structure Describes (freshId : Uuid) (entry : SegmentEntry) (segment : Segment) : Prop where
  id : segment.id = entry.id.getD freshId
  image : segment.image = entry.image
  page : segment.page = entry.page
  region : segment.region = entry.region
  label : segment.label = entry.label
  /-- There are as many marks, in the same order. -/
  marks : List.Forall₂ MarkEntry.Describes entry.marks segment.marks

/-- Every mark is written down properly. -/
def Proper (entry : SegmentEntry) : Prop := ∀ mark ∈ entry.marks, mark.Proper

variable {freshId : Uuid} {entry : SegmentEntry}

theorem toSegment_eq (freshId : Uuid) (entry : SegmentEntry) :
    entry.toSegment freshId = (entry.marks.mapM MarkEntry.toMark).map fun marks =>
      { id := entry.id.getD freshId, image := entry.image, page := entry.page,
        region := entry.region, label := entry.label, marks } := by
  unfold toSegment
  cases entry.marks.mapM MarkEntry.toMark <;> rfl

theorem of_toSegment_eq_ok {segment : Segment} (h : entry.toSegment freshId = .ok segment) :
    entry.Proper ∧ entry.Describes freshId segment := by
  rw [toSegment_eq] at h
  cases hmarks : entry.marks.mapM MarkEntry.toMark with
  | error fault => exact nomatch hmarks ▸ h
  | ok marks =>
    rw [hmarks] at h
    obtain rfl := Except.ok.inj h
    constructor
    · intro mark hmark
      obtain ⟨m, hm⟩ := exists_of_mapM hmarks hmark
      exact (MarkEntry.of_toMark_eq_ok hm).1
    · have hall := (forall₂_of_mapM hmarks).imp fun _ _ hm => (MarkEntry.of_toMark_eq_ok hm).2
      exact ⟨rfl, rfl, rfl, rfl, rfl, hall⟩

/-- The first mark that is not proper is reported. -/
theorem of_toSegment_eq_error {fault : SegmentFault} (h : entry.toSegment freshId = .error fault) :
    ∃ i mark, FirstAt (fun m => ¬ m.Proper) entry.marks i mark ∧
      mark.Reports fault fault.message := by
  rw [toSegment_eq] at h
  cases hmarks : entry.marks.mapM MarkEntry.toMark with
  | ok marks => exact nomatch hmarks ▸ h
  | error fault' =>
    rw [hmarks] at h
    obtain rfl := Except.error.inj h
    obtain ⟨i, mark, hfirst, hmark⟩ := firstAt_of_mapM hmarks
    refine ⟨i, mark, hfirst.imp fun m _ => ?_, MarkEntry.of_toMark_eq_error hmark⟩
    exact MarkEntry.toMark_fails_iff

/-- Just a segment with a mark that is not proper cannot be read. -/
theorem toSegment_fails_iff (freshId : Uuid) (entry : SegmentEntry) :
    (∃ fault, entry.toSegment freshId = .error fault) ↔ ¬ entry.Proper := by
  constructor
  · rintro ⟨fault, h⟩ hproper
    obtain ⟨i, mark, ⟨hi, hnot, -⟩, -⟩ := of_toSegment_eq_error h
    exact hnot (hproper mark (List.mem_of_getElem? hi))
  · intro hnot
    cases h : entry.toSegment freshId with
    | ok segment => exact absurd (of_toSegment_eq_ok h).1 hnot
    | error fault => exact ⟨fault, rfl⟩

/-- A segment that is written down is read again. -/
theorem toSegment_ofSegment (freshId : Uuid) (segment : Segment) :
    (ofSegment segment).toSegment freshId = .ok segment := by
  have hmarks : (segment.marks.map MarkEntry.ofMark).mapM MarkEntry.toMark = .ok segment.marks := by
    refine mapM_of_forall₂ (List.forall₂_map_left_iff.mpr (List.forall₂_same.mpr ?_))
    exact fun mark _ => MarkEntry.toMark_ofMark mark
  rw [toSegment_eq]
  show ((segment.marks.map MarkEntry.ofMark).mapM MarkEntry.toMark).map _ = _
  rw [hmarks]
  rfl

end SegmentEntry

/-! ## Documents -/

namespace Document

/-- The layout is what is written down; a segment without an identifier has the one that is
generated for its index. -/
structure Describes (freshId : Nat → Uuid) (document : Document) (layout : Layout) : Prop where
  title : layout.title = document.title
  settings : layout.settings = document.settings
  /-- There are as many segments, in the same order. -/
  segments : List.Forall₂ (fun (x : SegmentEntry × Nat) => x.1.Describes (freshId x.2))
    document.segments.zipIdx layout.score

/-- Every mark is written down properly. -/
def Proper (document : Document) : Prop := ∀ entry ∈ document.segments, entry.Proper

/-- What is reported of a document: the number of the first segment with a mark that is not
proper, counted from one, and what there is to say about the first such mark. -/
def Reports (document : Document) (fault : FaultySegment) : Prop :=
  ∃ index entry i mark,
    FirstAt (fun e => ¬ e.Proper) document.segments index entry ∧
      FirstAt (fun m => ¬ m.Proper) entry.marks i mark ∧
      fault.number = index + 1 ∧ mark.Reports fault.fault fault.fault.message

/-- Reads a segment, and tells its number if there is a fault. -/
def readSegment (freshId : Nat → Uuid) (x : SegmentEntry × Nat) : Except FaultySegment Segment :=
  (x.1.toSegment (freshId x.2)).mapError fun fault => { number := x.2 + 1, fault }

theorem toLayout_eq (freshId : Nat → Uuid) (document : Document) :
    document.toLayout freshId =
      (document.segments.zipIdx.mapM (readSegment freshId)).map fun score =>
      { title := document.title, settings := document.settings, score } := by
  show (document.segments.zipIdx.mapM (readSegment freshId) >>= fun score => _) = _
  cases document.segments.zipIdx.mapM (readSegment freshId) <;> rfl

variable {freshId : Nat → Uuid} {document : Document}

theorem readSegment_eq_ok_iff {x : SegmentEntry × Nat} {segment : Segment} :
    readSegment freshId x = .ok segment ↔ x.1.toSegment (freshId x.2) = .ok segment := by
  unfold readSegment
  cases x.1.toSegment (freshId x.2) with
  | ok s =>
    constructor
    · intro h
      rw [Except.ok.inj h]
    · intro h
      rw [Except.ok.inj h]
      rfl
  | error fault => exact ⟨nofun, nofun⟩

theorem readSegment_eq_error_iff {x : SegmentEntry × Nat} {fault : FaultySegment} :
    readSegment freshId x = .error fault ↔
      fault.number = x.2 + 1 ∧ x.1.toSegment (freshId x.2) = .error fault.fault := by
  unfold readSegment
  cases x.1.toSegment (freshId x.2) with
  | ok s => exact ⟨nofun, fun h => nomatch h.2⟩
  | error f =>
    constructor
    · intro h
      obtain rfl := Except.error.inj h
      exact ⟨rfl, rfl⟩
    · rintro ⟨hnumber, hfault⟩
      obtain rfl := Except.error.inj hfault
      rw [← hnumber]
      rfl

theorem readSegment_fails_iff {x : SegmentEntry × Nat} :
    (∃ fault, readSegment freshId x = .error fault) ↔ ¬ x.1.Proper := by
  rw [← SegmentEntry.toSegment_fails_iff (freshId x.2) x.1]
  constructor
  · rintro ⟨fault, h⟩
    exact ⟨fault.fault, (readSegment_eq_error_iff.mp h).2⟩
  · rintro ⟨fault, h⟩
    exact ⟨{ number := x.2 + 1, fault }, readSegment_eq_error_iff.mpr ⟨rfl, h⟩⟩

theorem of_toLayout_eq_ok {layout : Layout} (h : document.toLayout freshId = .ok layout) :
    document.Proper ∧ document.Describes freshId layout := by
  rw [toLayout_eq] at h
  cases hscore : document.segments.zipIdx.mapM (readSegment freshId) with
  | error fault => exact nomatch hscore ▸ h
  | ok score =>
    rw [hscore] at h
    obtain rfl := Except.ok.inj h
    constructor
    · intro entry hentry
      obtain ⟨index, hindex⟩ := List.getElem?_of_mem hentry
      have hmem : (entry, index) ∈ document.segments.zipIdx :=
        List.mem_zipIdx_iff_getElem?.mpr hindex
      obtain ⟨segment, hsegment⟩ := exists_of_mapM hscore hmem
      exact (SegmentEntry.of_toSegment_eq_ok (readSegment_eq_ok_iff.mp hsegment)).1
    · refine ⟨rfl, rfl, (forall₂_of_mapM hscore).imp fun x segment hsegment => ?_⟩
      exact (SegmentEntry.of_toSegment_eq_ok (readSegment_eq_ok_iff.mp hsegment)).2

theorem of_toLayout_eq_error {fault : FaultySegment}
    (h : document.toLayout freshId = .error fault) :
    document.Reports fault := by
  rw [toLayout_eq] at h
  cases hscore : document.segments.zipIdx.mapM (readSegment freshId) with
  | ok score => exact nomatch hscore ▸ h
  | error fault' =>
    rw [hscore] at h
    obtain rfl := Except.error.inj h
    obtain ⟨index, x, hfirst, hfault⟩ := firstAt_of_mapM hscore
    obtain ⟨hnumber, hsegment⟩ := readSegment_eq_error_iff.mp hfault
    obtain ⟨i, mark, hmark, hreports⟩ := SegmentEntry.of_toSegment_eq_error hsegment
    obtain ⟨rfl, hentry⟩ := FirstAt.of_zipIdx (P := fun e : SegmentEntry => ¬ e.Proper)
      (hfirst.imp fun y _ => readSegment_fails_iff)
    exact ⟨x.2, x.1, i, mark, hentry, hmark, hnumber, hreports⟩

/-- **A layout that is written down is read again.** -/
theorem toLayout_ofLayout (freshId : Nat → Uuid) (layout : Layout) :
    (ofLayout layout).toLayout freshId = .ok layout := by
  have hscore : (layout.score.map SegmentEntry.ofSegment).zipIdx.mapM (readSegment freshId) =
      .ok layout.score := by
    refine mapM_of_forall₂ ?_
    rw [List.zipIdx_map, List.forall₂_map_left_iff]
    -- the segments are those of their own numbering
    nth_rewrite 2 [← List.zipIdx_map_fst 0 layout.score]
    rw [List.forall₂_map_right_iff, List.forall₂_same]
    intro x _
    exact readSegment_eq_ok_iff.mpr (SegmentEntry.toSegment_ofSegment _ x.1)
  rw [toLayout_eq]
  show ((layout.score.map SegmentEntry.ofSegment).zipIdx.mapM (readSegment freshId)).map _ = _
  rw [hscore]
  rfl

/-- **A document whose marks are all written down properly describes a layout, which has
everything that is written down, and every layout is described by the document in which it is
written down; of any other document the first fault is reported.** The same is true of a text
that is decoded as the document. -/
theorem toLayout_as_described (freshId : Nat → Uuid) (document : Document) :
    ((∃ layout, document.toLayout freshId = .ok layout) ↔ document.Proper) ∧
      (∀ layout, document.toLayout freshId = .ok layout → document.Describes freshId layout) ∧
      (∀ layout, (ofLayout layout).toLayout freshId = .ok layout) ∧
      (∀ fault, document.toLayout freshId = .error fault → document.Reports fault) ∧
      ∀ (decode : String → Except String Document) (text), decode text = .ok document →
        Layout.ofText decode freshId text = (document.toLayout freshId).mapError .faulty := by
  refine ⟨⟨?_, fun hproper => ?_⟩, ?_, toLayout_ofLayout freshId, ?_, ?_⟩
  · rintro ⟨layout, h⟩
    exact (of_toLayout_eq_ok h).1
  · cases h : document.toLayout freshId with
    | ok layout => exact ⟨layout, rfl⟩
    | error fault =>
      obtain ⟨index, entry, i, mark, ⟨hindex, hnot, -⟩, -⟩ := of_toLayout_eq_error h
      exact absurd (hproper entry (List.mem_of_getElem? hindex)) hnot
  · intro layout h
    exact (of_toLayout_eq_ok h).2
  · intro fault h
    exact of_toLayout_eq_error h
  · intro decode text h
    unfold Layout.ofText
    rw [h]
    rfl

/-- A document with two marks that are not proper: an ending that says how often to go back but
not for which passes it is, and behind it a Fine with a label. -/
def endingWithoutNumbers : Document :=
  { segments := [
      { marks := [{ kind := .volta, x := .zero, numbers := some [1] }] },
      { marks := [{ kind := .segno, x := .zero, label := some "S" },
          { kind := .volta, x := .zero, times := some 2 },
          { kind := .fine, x := .one, label := some "S" }] }] }

/-- The ending is reported, and that it lacks its numbers. -/
theorem toLayout_as_described_endingWithoutNumbers :
    let fault : FaultySegment := { number := 2, fault := .voltaWithoutNumbers }
    endingWithoutNumbers.toLayout (fun _ => default) = .error fault ∧
      endingWithoutNumbers.Reports fault ∧ ¬ endingWithoutNumbers.Proper := by
  intro fault
  obtain ⟨hproper, -, -, hreports, -⟩ :=
    toLayout_as_described (fun _ => default) endingWithoutNumbers
  have hfault : endingWithoutNumbers.toLayout (fun _ => default) = .error fault := rfl
  refine ⟨hfault, hreports fault hfault, fun h => ?_⟩
  obtain ⟨layout, hlayout⟩ := hproper.mpr h
  exact nomatch hfault.symm.trans hlayout

end Document

end Playthrough
