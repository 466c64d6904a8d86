import Mathlib
import Playthrough.Formats.Standard
import Playthrough.Layout.Reader
import Playthrough.Proofs.JsonTexts
import Playthrough.Proofs.Spellings

/-!
# What listings say

Whoever reads a listing wants to know the passages from it.

From the JSON listing they are known in any case: it is read as an array with one object for each
passage, from which everything about it can be told. From the text listing they are known if each
line is about one passage. A label with line feeds takes several lines, and then the lines have
no longer to do with the passages one by one.

- `listJson_reads_back`: the JSON listing is read as one object for each passage;
- `HasLines`: the lines of a text;
- `LinesOfListing`: what the lines of the text listing have to do with the passages;
- `listing_of_layout_lines`: when there is one line for each passage.
-/

namespace Playthrough

/-! ## JSON -/

/-- How a number is shown: as a JSON number that stands for it, or as `null` if there is none. -/
inductive Json.ShowsNumber (a : Binary64) : Json → Prop
  | finite {n : Json.Number} (hfinite : a.isFinite = true) (hvalue : n.toBinary64 = a) :
    ShowsNumber a (.number n)
  | special (hfinite : a.isFinite = false) : ShowsNumber a .null

theorem Json.showsNumber_ofBinary64 (a : Binary64) : ShowsNumber a (.ofBinary64 a) := by
  unfold ofBinary64
  rcases Number.toBinary64_ofBinary64? a with ⟨hfinite, n, hn, hvalue⟩ | ⟨hfinite, hnone⟩
  · rw [hn]; exact .finite hfinite hvalue
  · rw [hnone]; exact .special hfinite

/-- How a passage is shown: as an object with these members and no others. The identifier of the
segment is written with hyphens, its label is a member just if it has one. -/
inductive Passage.ShownAs (p : Passage) : Json → Prop
  | named {id label : String} {start stop : Json}
      (hid : Uuid.ofHyphenated? id.toList = some p.segment.id)
      (hlabel : p.segment.label = some label)
      (hstart : Json.ShowsNumber p.startX start) (hstop : Json.ShowsNumber p.endX stop) :
    ShownAs p (.object [("segment", .string id), ("segmentIndex", .ofNat p.index),
      ("label", .string label), ("startX", start), ("endX", stop)])
  | nameless {id : String} {start stop : Json}
      (hid : Uuid.ofHyphenated? id.toList = some p.segment.id) (hlabel : p.segment.label = none)
      (hstart : Json.ShowsNumber p.startX start) (hstop : Json.ShowsNumber p.endX stop) :
    ShownAs p (.object [("segment", .string id), ("segmentIndex", .ofNat p.index),
      ("startX", start), ("endX", stop)])

theorem Uuid.ofHyphenated?_text (id : Uuid) : ofHyphenated? id.text.toList = some id := by
  rw [text, String.toList_ofList, ofHyphenated?_toChars]

theorem Passage.shownAs_toJson (p : Passage) : p.ShownAs p.record.toJson := by
  have hid := Uuid.ofHyphenated?_text p.segment.id
  have hstart := Json.showsNumber_ofBinary64 p.startX
  have hstop := Json.showsNumber_ofBinary64 p.endX
  unfold record PassageRecord.toJson
  dsimp only
  cases hlabel : p.segment.label with
  | none => exact .nameless hid hlabel hstart hstop
  | some label => exact .named hid hlabel hstart hstop

/-- **The JSON listing says everything about the passages.** It is the text of one JSON value, and
this is an array with an object for each passage, in playing order. -/
theorem listJson_reads_back (passages : List Passage) :
    ∃ values, Json.read (listJson passages) = some (.array values) ∧
      List.Forall₂ Passage.ShownAs passages values := by
  refine ⟨(passages.map Passage.record).map PassageRecord.toJson,
    Json.read_write Json.Layout.indented_addsBlanks _, ?_⟩
  rw [List.map_map, List.forall₂_map_right_iff, List.forall₂_same]
  exact fun p _ => p.shownAs_toJson

/-! ## Lines -/

/-- The lines of a text in which every line is ended by a line feed. -/
structure HasLines (text : String) (lines : List String) : Prop where
  /-- The text is the lines with their line feeds. -/
  text_eq : text = String.join (lines.map fun line => line ++ "\n")
  /-- No line has a line feed of its own. -/
  single : ∀ line ∈ lines, '\n' ∉ line.toList

namespace HasLines

theorem nil : HasLines "" [] where
  text_eq := rfl
  single := by rintro _ ⟨⟩

theorem append {s t : String} {a b : List String} (hs : HasLines s a) (ht : HasLines t b) :
    HasLines (s ++ t) (a ++ b) where
  text_eq := by rw [List.map_append, String.join_append, ← hs.text_eq, ← ht.text_eq]
  single line hline := by
    rcases List.mem_append.mp hline with hline | hline
    · exact hs.single line hline
    · exact ht.single line hline

theorem singleton {s : String} (h : '\n' ∉ s.toList) : HasLines (s ++ "\n") [s] where
  text_eq := by rw [List.map_singleton, String.join_cons, String.join_nil, String.append_empty]
  single line hline := by rwa [List.mem_singleton.mp hline]

/-- There are as many lines as line feeds. -/
theorem count_eq {text : String} {lines : List String} (h : HasLines text lines) :
    text.toList.count '\n' = lines.length := by
  obtain ⟨rfl, hsingle⟩ := h
  induction lines with
  | nil => rfl
  | cons line lines ih =>
    have hline : line.toList.count '\n' = 0 :=
      List.count_eq_zero.mpr (hsingle line List.mem_cons_self)
    have hrest := ih fun line hline => hsingle line (List.mem_cons_of_mem _ hline)
    rw [List.map_cons, String.join_cons, String.toList_append, String.toList_append,
      List.count_append, List.count_append, hline, hrest, List.length_cons, Nat.zero_add]
    exact Nat.add_comm 1 _

/-- A text has its lines in one way only. -/
theorem unique {text : String} {a b : List String} (ha : HasLines text a) (hb : HasLines text b) :
    a = b := by
  have hlength : a.length = b.length := by rw [← ha.count_eq, ← hb.count_eq]
  induction a generalizing text b with
  | nil => exact (List.eq_nil_of_length_eq_zero hlength.symm).symm
  | cons line lines ih =>
    cases b with
    | nil => cases hlength
    | cons line' lines' =>
      obtain ⟨rfl, hsingle⟩ := ha
      obtain ⟨htext, hsingle'⟩ := hb
      rw [List.forall_mem_cons] at hsingle hsingle'
      have hspan : ∀ (line : String) (rest : List Char), '\n' ∉ line.toList →
          (line.toList ++ '\n' :: rest).span (· != '\n') = (line.toList, '\n' :: rest) := by
        intro line rest hline
        refine span_append (fun c hc => bne_iff_ne.mpr ?_) (by rintro _ ⟨⟩; rfl)
        rintro rfl
        exact hline hc
      have hchars := congrArg (fun s => s.toList.span (· != '\n')) htext
      simp only [List.map_cons, String.join_cons, String.toList_append, List.append_assoc] at hchars
      have hfirst := (hspan line _ hsingle.1).symm.trans (hchars.trans (hspan line' _ hsingle'.1))
      obtain ⟨hline, hrest⟩ := Prod.mk.inj hfirst
      obtain rfl := String.toList_inj.mp hline
      have hrest := String.toList_inj.mp (List.cons.inj hrest).2
      rw [ih ⟨rfl, hsingle.2⟩ ⟨hrest, hsingle'.2⟩ (Nat.succ.inj hlength)]

/-- A text that ends with a line feed has lines. -/
theorem exists_of_line_feed (s : String) : ∃ lines, HasLines (s ++ "\n") lines := by
  induction hlength : s.toList.length using Nat.strong_induction_on generalizing s with
  | _ n ih =>
    by_cases hfeed : '\n' ∈ s.toList
    · obtain ⟨front, rest, hs, hfront⟩ := List.eq_append_cons_of_mem hfeed
      have hsplit : s = String.ofList front ++ "\n" ++ String.ofList rest := by
        rw [← String.toList_inj, hs]
        simp
      have hrest : (String.ofList rest).toList.length < n := by
        rw [← hlength, hs]
        simp only [String.toList_ofList, List.length_append, List.length_cons]
        omega
      obtain ⟨lines, hlines⟩ := ih _ hrest (String.ofList rest) rfl
      rw [hsplit, String.append_assoc]
      exact ⟨_, (singleton (by rwa [String.toList_ofList])).append hlines⟩
    · exact ⟨_, singleton hfeed⟩

end HasLines

/-! ## Lines of a listing -/

/-- The digits of a number are no line feeds, and neither is the point among them. -/
theorem Decimal.line_feed_not_mem_pointed (n places : Nat) : '\n' ∉ pointed n places := by
  have hdigits : '\n' ∉ Nat.toDigits 10 n := fun h => absurd (isDigit_of_mem_toDigits h) (by decide)
  cases places with
  | zero => exact hdigits
  | succ places =>
    have hpadded : ∀ k, '\n' ∉ List.replicate k '0' ++ Nat.toDigits 10 n := by
      intro k h
      rcases List.mem_append.mp h with h | h
      · exact absurd (List.eq_of_mem_replicate h) (by decide)
      · exact hdigits h
    show '\n' ∉ (splitPlaces n (places + 1)).1 ++ '.' :: (splitPlaces n (places + 1)).2
    simp only [splitPlaces, List.splitAt_eq]
    intro h
    rcases List.mem_append.mp h with h | h
    · exact hpadded _ (List.mem_of_mem_take h)
    · rcases List.mem_cons.mp h with h | h
      · cases h
      · exact hpadded _ (List.mem_of_mem_drop h)

theorem Decimal.line_feed_not_mem_signChars (negative : Bool) : '\n' ∉ signChars negative := by
  cases negative <;> decide

theorem Binary64.line_feed_not_mem_fixedText (places : Nat) (a : Binary64) :
    '\n' ∉ (a.fixedText places).toList := by
  unfold fixedText
  by_cases hfinite : a.isFinite = true
  · rw [if_pos hfinite, String.toList_ofList]
    intro h
    rcases List.mem_append.mp h with h | h
    · exact Decimal.line_feed_not_mem_signChars _ h
    · exact Decimal.line_feed_not_mem_pointed _ _ h
  · rw [if_neg hfinite]
    unfold specialText
    cases a.isNaN <;> cases a.negative <;> decide

theorem Passage.line_feed_not_mem_stretchText (p : Passage) : '\n' ∉ p.stretchText.toList := by
  have hstart := Binary64.line_feed_not_mem_fixedText 2 p.startX
  have hstop := Binary64.line_feed_not_mem_fixedText 2 p.endX
  simp [stretchText, hstart, hstop]

theorem Uuid.line_feed_not_mem_text (id : Uuid) : '\n' ∉ id.text.toList := by
  obtain ⟨a, b, c, d, e, -, hdigits, htext⟩ := toChars_groups id
  have hpadded : '\n' ∉ id.paddedDigits := fun h =>
    absurd (Hexadecimal.isSome_digit?_of_nat? (nat?_paddedDigits id) _ h) (by decide)
  rw [← hdigits] at hpadded
  rw [text, String.toList_ofList, htext]
  simpa [and_assoc] using hpadded

/-- A segment has a name with line feeds only if it has such a label. -/
theorem Segment.line_feed_mem_displayName {s : Segment} :
    '\n' ∈ s.displayName.toList ↔ ∃ label, s.label = some label ∧ '\n' ∈ label.toList := by
  unfold displayName
  cases s.label with
  | none =>
    refine ⟨fun h => absurd h (Uuid.line_feed_not_mem_text s.id), ?_⟩
    rintro ⟨_, ⟨⟩, _⟩
  | some label =>
    refine ⟨fun h => ⟨label, rfl, h⟩, ?_⟩
    rintro ⟨_, ⟨⟩, h⟩
    exact h

/-- The line feeds of an entry are those of the name in it. -/
theorem Passage.count_entry (p : Passage) :
    p.entry.toList.count '\n' = p.segment.displayName.toList.count '\n' := by
  have hstretch : p.stretchText.toList.count '\n' = 0 :=
    List.count_eq_zero.mpr p.line_feed_not_mem_stretchText
  unfold entry
  cases p.isFull with
  | true => rfl
  | false =>
    rw [if_neg Bool.false_ne_true, String.toList_append, String.toList_append, List.count_append,
      List.count_append, hstretch]
    rfl

theorem listText_cons (p : Passage) (passages : List Passage) :
    listText (p :: passages) = p.entry ++ "\n" ++ listText passages := String.join_cons

theorem exists_hasLines_listText (passages : List Passage) :
    ∃ lines, HasLines (listText passages) lines := by
  induction passages with
  | nil => exact ⟨[], .nil⟩
  | cons p passages ih =>
    obtain ⟨lines, hlines⟩ := ih
    obtain ⟨first, hfirst⟩ := HasLines.exists_of_line_feed p.entry
    rw [listText_cons]
    exact ⟨_, hfirst.append hlines⟩

/-- Entries without line feeds are the lines of the listing. -/
theorem hasLines_listText {passages : List Passage}
    (h : ∀ p ∈ passages, '\n' ∉ p.segment.displayName.toList) :
    HasLines (listText passages) (passages.map Passage.entry) where
  text_eq := by rw [List.map_map]; rfl
  single line hline := by
    obtain ⟨p, hp, rfl⟩ := List.mem_map.mp hline
    rw [← List.count_eq_zero, p.count_entry, List.count_eq_zero]
    exact h p hp

/-- Every passage has one line feed behind its entry and those of the name in it. -/
theorem count_listText (passages : List Passage) :
    (listText passages).toList.count '\n' =
      passages.length + (passages.map fun p => p.segment.displayName.toList.count '\n').sum := by
  induction passages with
  | nil => rfl
  | cons p passages ih =>
    have hfeed : "\n".toList.count '\n' = 1 := rfl
    rw [listText_cons, String.toList_append, String.toList_append, List.count_append,
      List.count_append, ih, p.count_entry, hfeed, List.map_cons, List.sum_cons, List.length_cons]
    omega

/-- The line of a passage: the name of its segment, and where it begins and ends unless it covers
the segment from edge to edge. -/
inductive Passage.ShownOn (p : Passage) : String → Prop
  | whole (hfull : p.startX ≤ .zero ∧ .one ≤ p.endX) : ShownOn p p.segment.displayName
  | part (hpart : ¬(p.startX ≤ .zero ∧ .one ≤ p.endX)) :
    ShownOn p (p.segment.displayName ++ " [" ++ p.startX.fixedText 2 ++ ".." ++
      p.endX.fixedText 2 ++ "]")

theorem Passage.shownOn_entry (p : Passage) : p.ShownOn p.entry := by
  unfold entry isFull
  by_cases hfull : p.startX ≤ .zero ∧ .one ≤ p.endX
  · rw [if_pos (decide_eq_true hfull)]
    exact .whole hfull
  · rw [if_neg (by simpa using hfull)]
    have htext : p.segment.displayName ++ " " ++ p.stretchText = p.segment.displayName ++ " [" ++
        p.startX.fixedText 2 ++ ".." ++ p.endX.fixedText 2 ++ "]" := by
      simp [← String.toList_inj, stretchText]
    rw [htext]
    exact .part hfull

/-- What the lines of the text listing have to do with the passages. -/
structure LinesOfListing (passages : List Passage) (lines : List String) : Prop where
  /-- These are the lines of the listing, and there is no other way to read it. -/
  lines_iff : ∀ other, HasLines (listText passages) other ↔ other = lines
  /-- There is a line for each passage, and one more for each line feed in its name. -/
  length_eq : lines.length = passages.length +
    (passages.map fun p => p.segment.displayName.toList.count '\n').sum
  /-- There are as many lines as passages if and only if no label has a line feed. -/
  one_each_iff : lines.length = passages.length ↔
    ∀ p ∈ passages, ∀ label, p.segment.label = some label → '\n' ∉ label.toList
  /-- If there are as many lines as passages, each line is that of its passage. -/
  shown : lines.length = passages.length → List.Forall₂ Passage.ShownOn passages lines

theorem exists_linesOfListing (passages : List Passage) :
    ∃ lines, LinesOfListing passages lines := by
  obtain ⟨lines, hlines⟩ := exists_hasLines_listText passages
  have hlength : lines.length = passages.length +
      (passages.map fun p => p.segment.displayName.toList.count '\n').sum := by
    rw [← hlines.count_eq, count_listText]
  have hnames : lines.length = passages.length ↔
      ∀ p ∈ passages, '\n' ∉ p.segment.displayName.toList := by
    rw [hlength, Nat.add_eq_left, List.sum_eq_zero_iff, List.forall_mem_map]
    simp only [List.count_eq_zero]
  refine ⟨lines, ?lines_iff, hlength, ?one_each_iff, ?shown⟩
  case lines_iff =>
    intro other
    constructor
    · intro h
      exact h.unique hlines
    · rintro rfl
      exact hlines
  case one_each_iff =>
    rw [hnames]
    refine forall₂_congr fun p _ => ?_
    rw [Segment.line_feed_mem_displayName, not_exists]
    exact forall_congr' fun label => not_and
  case shown =>
    intro h
    rw [hlines.unique (hasLines_listText (hnames.mp h)), List.forall₂_map_right_iff,
      List.forall₂_same]
    exact fun p _ => p.shownOn_entry

/-- **The listing of a layout has one line for each passage just if no label has a line feed.** -/
theorem listing_of_layout_lines (layout : Layout) :
    (∀ decode freshId text, Layout.ofText decode freshId text = .ok layout →
      layout.validated = .ok layout →
        unroll decode freshId text = .ok (listText layout.performance.passages)) ∧
    ∃ lines, LinesOfListing layout.performance.passages lines := by
  refine ⟨?_, exists_linesOfListing _⟩
  intro decode freshId text hlayout hvalid
  unfold unroll
  rw [hlayout]
  show (layout.validated.mapError LayoutError.faulty).bind _ = _
  rw [hvalid]
  rfl

/-- A layout of two segments with a line for each. -/
theorem listing_of_layout_lines_twoSegments :
    let decode := Formats.standard.decode
    let freshId := fun _ => (default : Uuid)
    let layout : Layout :=
      { score := [{ id := default, label := some "A" }, { id := default, label := some "B" }] }
    Layout.ofText decode freshId "segments: [{label: A}, {label: B}]" = .ok layout ∧
      layout.validated = .ok layout ∧
      unroll decode freshId "segments: [{label: A}, {label: B}]" =
        .ok (listText layout.performance.passages) ∧
      HasLines (listText layout.performance.passages) ["A", "B"] := by
  intro decode freshId layout
  have htext : Layout.ofText Formats.standard.decode (fun _ => default)
      "segments: [{label: A}, {label: B}]" = .ok
        { score := [{ id := default, label := some "A" },
            { id := default, label := some "B" }] } := by
    cbv
  have hvalid : layout.validated = .ok layout := by decide +kernel
  obtain ⟨hunroll, lines, hlines, -, hone, hshown⟩ := listing_of_layout_lines layout
  refine ⟨htext, hvalid, hunroll decode freshId _ htext hvalid, ?_⟩
  have hpassages : layout.performance.passages =
      [⟨{ id := default, label := some "A" }, 0, .zero, .one⟩,
        ⟨{ id := default, label := some "B" }, 1, .zero, .one⟩] := by decide +kernel
  rw [hpassages] at hlines hone hshown ⊢
  have hfull : (Binary64.zero ≤ .zero) ∧ (Binary64.one ≤ .one) := by decide
  obtain _ | ⟨hfirst, _ | ⟨hsecond, _ | _⟩⟩ := hshown (hone.mpr (by decide))
  cases hfirst with
  | part hpart => exact absurd hfull hpart
  | whole =>
    cases hsecond with
    | part hpart => exact absurd hfull hpart
    | whole => exact (hlines _).mpr rfl

/-- A layout without any fault whose first label has a line feed. -/
def twoLineLabel : Layout :=
  { score := [{ id := default, label := some "A\nB" }, { id := default, label := some "C" }] }

/-- The listing of `twoLineLabel` has three lines for its two passages. -/
theorem listing_of_twoLineLabel :
    let decode := Formats.standard.decode
    let freshId := fun _ => (default : Uuid)
    let text := "segments:\n  - label: \"A\\nB\"\n  - label: C\n"
    Layout.ofText decode freshId text = .ok twoLineLabel ∧
      twoLineLabel.validated = .ok twoLineLabel ∧
      unroll decode freshId text = .ok "A\nB\nC\n" ∧
      twoLineLabel.performance.passages.length = 2 ∧
      ¬∃ lines, HasLines "A\nB\nC\n" lines ∧ lines.length = 2 := by
  have htext : Layout.ofText Formats.standard.decode (fun _ => default)
      "segments:\n  - label: \"A\\nB\"\n  - label: C\n" = .ok twoLineLabel := by cbv
  refine ⟨htext, by decide +kernel, ?_, by decide +kernel, ?_⟩
  · show unroll Formats.standard.decode (fun _ => default)
      "segments:\n  - label: \"A\\nB\"\n  - label: C\n" = _
    unfold unroll
    rw [htext]
    decide +kernel
  · rintro ⟨lines, hlines, hlength⟩
    have hcount := hlines.count_eq
    rw [hlength] at hcount
    exact absurd hcount (by decide)

end Playthrough
