import Mathlib.Data.Multiset.Basic
import Playthrough.CommandLine.Options
import Playthrough.Proofs.Descriptions

/-!
# The order of arguments

Flags, iteration factors and paths may be mixed on the command line in any way. What the program
is asked to do depends on which flags there are, on the iteration factors in their order and on
the paths in their order, but not on how the three are interleaved.

- `SpellsFactor`: the texts that are iteration factors;
- `Interleaves`: the argument lists in which given flags, iteration factors and paths are mixed;
- `read_of_interleaves`: what the arguments of such a list say;
- `accepts_iff_mixed`: no other list is accepted;
- `ofArguments_of_interleaves`: what the program is asked to do, or what is wrong.
-/

namespace Playthrough

/-! ## Iteration factors -/

theorem Decimal.nat?_eq_some_iff {cs : List Char} {n : Nat} :
    nat? cs = some n ↔
      cs ≠ [] ∧ (∀ c ∈ cs, c.isDigit) ∧ Nat.ofDigitChars 10 cs 0 = n := by
  unfold nat?
  by_cases h : (!cs.isEmpty && cs.all Char.isDigit) = true
  · rw [if_pos h]
    simp only [Bool.and_eq_true, Bool.not_eq_true', List.isEmpty_eq_false_iff,
      List.all_eq_true] at h
    rw [Option.some_inj]
    exact ⟨fun hn => ⟨h.1, h.2, hn⟩, fun hn => hn.2.2⟩
  · rw [if_neg h]
    simp only [Bool.and_eq_true, Bool.not_eq_true', List.isEmpty_eq_false_iff,
      List.all_eq_true] at h
    exact ⟨fun hn => (nomatch hn), fun hn => absurd ⟨hn.1, hn.2.1⟩ h⟩

namespace CommandLine

/-- The text spells a number of at most 64 bits: one digit or more, perhaps behind a plus sign. -/
def SpellsFactor (text : String) (n : Nat) : Prop :=
  n < factorLimit ∧ ∃ digits : List Char, (text.toList = digits ∨ text.toList = '+' :: digits) ∧
    digits ≠ [] ∧ (∀ c ∈ digits, c.isDigit) ∧ Nat.ofDigitChars 10 digits 0 = n

/-- A plus sign is no digit, so that there is only one way to leave it out. -/
theorem factor?_eq_some_iff {text : String} {n : Nat} :
    factor? text = some n ↔ SpellsFactor text n := by
  unfold factor? SpellsFactor
  dsimp only
  split
  · rename_i rest hplus
    rw [Option.filter_eq_some_iff, Decimal.nat?_eq_some_iff, decide_eq_true_iff, and_comm]
    refine and_congr_right fun _ => ⟨fun h => ⟨rest, .inr hplus, h⟩, ?_⟩
    rintro ⟨digits, hdigits | hdigits, hne, hall, hn⟩
    · obtain rfl : '+' :: rest = digits := hplus.symm.trans hdigits
      exact nomatch hall '+' List.mem_cons_self
    · obtain rfl : rest = digits := (List.cons.inj (hplus.symm.trans hdigits)).2
      exact ⟨hne, hall, hn⟩
  · rename_i hplus
    rw [Option.filter_eq_some_iff, Decimal.nat?_eq_some_iff, decide_eq_true_iff, and_comm]
    refine and_congr_right fun _ => ⟨fun h => ⟨text.toList, .inl rfl, h⟩, ?_⟩
    rintro ⟨digits, hdigits | hdigits, h⟩
    · rw [hdigits]
      exact h
    · exact absurd hdigits (hplus digits)

theorem SpellsFactor.unique {text : String} {m n : Nat} (hm : SpellsFactor text m)
    (hn : SpellsFactor text n) : m = n :=
  Option.some.inj ((factor?_eq_some_iff.mpr hm).symm.trans (factor?_eq_some_iff.mpr hn))

/-- Reads what follows the flag for iteration factors. -/
def readFactor (text : String) : Except UsageError Nat :=
  match factor? text with
  | some n => .ok n
  | none => .error (.badFactor text)

theorem readFactor_eq_ok_iff {text : String} {n : Nat} :
    readFactor text = .ok n ↔ SpellsFactor text n := by
  rw [← factor?_eq_some_iff, readFactor]
  cases factor? text <;> simp

theorem of_readFactor_eq_error {text : String} {error : UsageError}
    (h : readFactor text = .error error) :
    (¬ ∃ n, SpellsFactor text n) ∧ error = .badFactor text := by
  constructor
  · rintro ⟨n, hn⟩
    exact nomatch h.symm.trans (readFactor_eq_ok_iff.mpr hn)
  · unfold readFactor at h
    cases hfactor : factor? text with
    | some n =>
      rw [hfactor] at h
      exact nomatch h
    | none =>
      rw [hfactor] at h
      exact (Except.error.inj h).symm

/-! ## Mixed arguments -/

/-- The options that are a word of their own. -/
inductive Flag where
  /-- Scores that are not valid are performed too. -/
  | noValidate
  /-- The output is JSON. -/
  | json
  /-- The segments are put into reading order. -/
  | sort
deriving DecidableEq

/-- How a flag is written. -/
def Flag.text : Flag → String
  | noValidate => "--no-validate"
  | json => "--json"
  | sort => "--sort"

/-- Two dashes stand in front of an argument, so that it is not taken for a path. -/
def Dashed (arg : String) : Prop := ['-', '-'] <+: arg.toList

instance (arg : String) : Decidable (Dashed arg) :=
  inferInstanceAs (Decidable (['-', '-'] <+: arg.toList))

/-- The argument lists that mix flags, iteration factors and paths. Each iteration factor follows
its own flag, and the iteration factors keep their order, as do the paths. -/
inductive Interleaves : Multiset Flag → List String → List String → List String → Prop where
  | nil : Interleaves 0 [] [] []
  | flag {flags : Multiset Flag} {factors paths args : List String} (flag : Flag)
      (h : Interleaves flags factors paths args) :
      Interleaves (flag ::ₘ flags) factors paths (flag.text :: args)
  | factor {flags : Multiset Flag} {factors paths args : List String} (text : String)
      (h : Interleaves flags factors paths args) :
      Interleaves flags (text :: factors) paths ("--iteration-factor" :: text :: args)
  | path {flags : Multiset Flag} {factors paths args : List String} (path : String)
      (h : Interleaves flags factors paths args) :
      Interleaves flags factors (path :: paths) (path :: args)

section Reading

variable {a b : Arguments} {flags : Multiset Flag} {factors paths args : List String}

/-- What the arguments say when a flag is added. -/
def Arguments.raise (a : Arguments) : Flag → Arguments
  | .noValidate => { a with validate := false }
  | .json => { a with json := true }
  | .sort => { a with sort := true }

theorem read_flag (a : Arguments) (flag : Flag) (args : List String) :
    a.read (flag.text :: args) = (a.raise flag).read args := by
  cases flag <;> rfl

theorem read_factor (a : Arguments) (text : String) (args : List String) :
    a.read ("--iteration-factor" :: text :: args) =
      (readFactor text).bind fun n => { a with iterationFactor := some n }.read args := by
  have harg : Argument.ofText "--iteration-factor" = .iterationFactor := by decide
  simp only [Arguments.read, harg, readFactor]
  cases factor? text <;> rfl

/-- What follows the flag for iteration factors is taken for one, even if it looks like a flag. -/
example : Arguments.read {} ["--iteration-factor", "--json", "a"] = .error (.badFactor "--json") :=
  rfl

theorem ofText_of_not_dashed {arg : String} (h : ¬ Dashed arg) : Argument.ofText arg = .path := by
  have hne : ∀ flag : String, Dashed flag → arg ≠ flag := by
    rintro flag hflag rfl
    exact h hflag
  unfold Argument.ofText
  rw [if_neg (hne _ (by decide)), if_neg (hne _ (by decide)), if_neg (hne _ (by decide)),
    if_neg (hne _ (by decide)), if_neg fun hdashes => h (List.isPrefixOf_iff_prefix.mp hdashes)]

theorem read_path (a : Arguments) {path : String} (h : ¬ Dashed path) (args : List String) :
    a.read (path :: args) = { a with paths := a.paths ++ [path] }.read args := by
  have harg : Argument.ofText path = .path := ofText_of_not_dashed h
  cases args <;> simp only [Arguments.read, harg]

/-- What the arguments say when all of this is added. -/
def Arguments.extended (a : Arguments) (flags : Multiset Flag) (paths : List String)
    (numbers : List Nat) : Arguments where
  validate := a.validate && decide (.noValidate ∉ flags)
  json := a.json || decide (.json ∈ flags)
  sort := a.sort || decide (.sort ∈ flags)
  iterationFactor := numbers.getLast?.or a.iterationFactor
  paths := a.paths ++ paths

/-- **What mixed arguments say**: the iteration factors are read in their order, and the first one
that is none is reported; the rest does not depend on the order. -/
theorem read_of_interleaves (h : Interleaves flags factors paths args)
    (hpaths : ∀ path ∈ paths, ¬ Dashed path) (a : Arguments) :
    a.read args = (factors.mapM readFactor).map (a.extended flags paths) := by
  induction h generalizing a with
  | nil => simp [Arguments.read, Arguments.extended, pure, Except.pure, Except.map]
  | @flag flags factors paths args flag _ ih =>
    rw [read_flag, ih hpaths]
    congr 1
    funext numbers
    cases flag <;> simp [Arguments.raise, Arguments.extended]
  | @factor flags factors paths args text _ ih =>
    rw [read_factor]
    cases htext : readFactor text with
    | error error => rw [mapM_cons_of_error htext]; rfl
    | ok n =>
      rw [mapM_cons_of_ok htext]
      show ({ a with iterationFactor := some n } : Arguments).read args = _
      rw [ih hpaths]
      cases factors.mapM readFactor with
      | error error => rfl
      | ok numbers => simp [Except.map, Arguments.extended, List.getLast?_cons]
  | @path flags factors paths args path _ ih =>
    rw [read_path a (hpaths path List.mem_cons_self),
      ih fun p hp => hpaths p (List.mem_cons_of_mem path hp)]
    congr 1
    funext numbers
    simp [Arguments.extended]

/-- If they can be read, all iteration factors are spelled properly. -/
theorem of_read_eq_ok (h : Interleaves flags factors paths args)
    (hpaths : ∀ path ∈ paths, ¬ Dashed path) (hread : a.read args = .ok b) :
    ∃ numbers, List.Forall₂ SpellsFactor factors numbers ∧ b = a.extended flags paths numbers := by
  rw [read_of_interleaves h hpaths] at hread
  cases hnumbers : factors.mapM readFactor with
  | error error =>
    rw [hnumbers] at hread
    exact nomatch hread
  | ok numbers =>
    rw [hnumbers] at hread
    refine ⟨numbers, ?_, (Except.ok.inj hread).symm⟩
    exact (forall₂_of_mapM hnumbers).imp fun _ _ => readFactor_eq_ok_iff.mp

/-- If they cannot be read, the first iteration factor that is none is to blame. -/
theorem of_read_eq_error {error : UsageError} (h : Interleaves flags factors paths args)
    (hpaths : ∀ path ∈ paths, ¬ Dashed path) (hread : a.read args = .error error) :
    ∃ i text, FirstAt (fun text => ¬ ∃ n, SpellsFactor text n) factors i text ∧
      error = .badFactor text := by
  rw [read_of_interleaves h hpaths] at hread
  cases hnumbers : factors.mapM readFactor with
  | ok numbers =>
    rw [hnumbers] at hread
    exact nomatch hread
  | error e =>
    rw [hnumbers] at hread
    obtain rfl : e = error := Except.error.inj hread
    obtain ⟨i, text, hfirst, htext⟩ := firstAt_of_mapM hnumbers
    refine ⟨i, text, hfirst.imp fun t _ => ?_, (of_readFactor_eq_error htext).2⟩
    constructor
    · rintro ⟨e, he⟩
      exact (of_readFactor_eq_error he).1
    · intro hnot
      cases ht : readFactor t with
      | ok n => exact absurd ⟨n, readFactor_eq_ok_iff.mp ht⟩ hnot
      | error e => exact ⟨e, rfl⟩

/-! ## No other arguments -/

/-- What an argument is taken for. -/
theorem ofText_spec (arg : String) :
    match Argument.ofText arg with
    | .noValidate => arg = Flag.noValidate.text
    | .json => arg = Flag.json.text
    | .sort => arg = Flag.sort.text
    | .iterationFactor => arg = "--iteration-factor"
    | .unknown => Dashed arg
    | .path => ¬ Dashed arg := by
  unfold Argument.ofText
  by_cases hvalidate : arg = "--no-validate"
  · rw [if_pos hvalidate]
    exact hvalidate
  rw [if_neg hvalidate]
  by_cases hjson : arg = "--json"
  · rw [if_pos hjson]
    exact hjson
  rw [if_neg hjson]
  by_cases hsort : arg = "--sort"
  · rw [if_pos hsort]
    exact hsort
  rw [if_neg hsort]
  by_cases hfactor : arg = "--iteration-factor"
  · rw [if_pos hfactor]
    exact hfactor
  rw [if_neg hfactor]
  by_cases hdashed : ['-', '-'].isPrefixOf arg.toList = true
  · rw [if_pos hdashed]
    exact List.isPrefixOf_iff_prefix.mp hdashed
  · rw [if_neg hdashed]
    exact fun h => hdashed (List.isPrefixOf_iff_prefix.mpr h)

/-- **No other arguments make sense**: what is read without an error is a mix of flags, iteration
factors and paths. -/
theorem exists_interleaves_of_read (h : a.read args = .ok b) :
    ∃ flags factors paths, Interleaves flags factors paths args ∧
      ∀ path ∈ paths, ¬ Dashed path := by
  induction a, args using Arguments.read.induct with
  | case1 a => exact ⟨0, [], [], .nil, fun path hpath => absurd hpath List.not_mem_nil⟩
  | case2 a arg args harg ih =>
    obtain rfl : arg = Flag.noValidate.text := by simpa only [harg] using ofText_spec arg
    obtain ⟨flags, factors, paths, hmixed, hpaths⟩ := ih (read_flag a .noValidate args ▸ h)
    exact ⟨.noValidate ::ₘ flags, factors, paths, .flag .noValidate hmixed, hpaths⟩
  | case3 a arg args harg ih =>
    obtain rfl : arg = Flag.json.text := by simpa only [harg] using ofText_spec arg
    obtain ⟨flags, factors, paths, hmixed, hpaths⟩ := ih (read_flag a .json args ▸ h)
    exact ⟨.json ::ₘ flags, factors, paths, .flag .json hmixed, hpaths⟩
  | case4 a arg args harg ih =>
    obtain rfl : arg = Flag.sort.text := by simpa only [harg] using ofText_spec arg
    obtain ⟨flags, factors, paths, hmixed, hpaths⟩ := ih (read_flag a .sort args ▸ h)
    exact ⟨.sort ::ₘ flags, factors, paths, .flag .sort hmixed, hpaths⟩
  | case5 a arg harg =>
    simp only [Arguments.read, harg] at h
    exact nomatch h
  | case6 a arg harg text args hfactor =>
    simp only [Arguments.read, harg, hfactor] at h
    exact nomatch h
  | case7 a arg harg text args n hfactor ih =>
    obtain rfl : arg = "--iteration-factor" := by simpa only [harg] using ofText_spec arg
    simp only [Arguments.read, harg, hfactor] at h
    obtain ⟨flags, factors, paths, hmixed, hpaths⟩ := ih h
    exact ⟨flags, text :: factors, paths, .factor text hmixed, hpaths⟩
  | case8 a arg args harg =>
    have hread : a.read (arg :: args) = .error (.unknownFlag arg) := by
      cases args <;> simp only [Arguments.read, harg]
    exact nomatch hread.symm.trans h
  | case9 a arg args harg ih =>
    have hplain : ¬ Dashed arg := by simpa only [harg] using ofText_spec arg
    obtain ⟨flags, factors, paths, hmixed, hpaths⟩ := ih (read_path a hplain args ▸ h)
    exact ⟨flags, factors, arg :: paths, .path arg hmixed,
      List.forall_mem_cons.mpr ⟨hplain, hpaths⟩⟩

/-! ## What the program is asked to do -/

/-- What arguments that can be read come to, by the number of paths. -/
theorem ofArguments_cases (hread : Arguments.read {} args = .ok a) :
    (∃ options, Options.ofArguments args = .ok options ∧
        a.paths = options.inputPath :: options.outputPath.toList ∧
        options.validate = a.validate ∧ options.json = a.json ∧ options.sort = a.sort ∧
        options.iterationFactor = a.iterationFactor) ∨
      Options.ofArguments args = .error .pathCount ∧
        ¬ (a.paths.length = 1 ∨ a.paths.length = 2) := by
  unfold Options.ofArguments
  rw [hread]
  dsimp only [bind, Except.bind]
  rcases a.paths with _ | ⟨input, _ | ⟨output, _ | ⟨third, rest⟩⟩⟩
  · exact .inr ⟨rfl, by simp⟩
  · exact .inl ⟨_, rfl, rfl, rfl, rfl, rfl, rfl⟩
  · exact .inl ⟨_, rfl, rfl, rfl, rfl, rfl, rfl⟩
  · exact .inr ⟨rfl, by simp⟩

theorem ofArguments_of_read_eq_error {error : UsageError}
    (hread : Arguments.read {} args = .error error) : Options.ofArguments args = .error error := by
  unfold Options.ofArguments
  rw [hread]
  rfl

/-- If the arguments make sense, they can be read, and there are one or two paths. -/
theorem of_ofArguments_eq_ok {options : Options} (h : Options.ofArguments args = .ok options) :
    ∃ a, Arguments.read {} args = .ok a ∧
      a.paths = options.inputPath :: options.outputPath.toList ∧
      options.validate = a.validate ∧ options.json = a.json ∧ options.sort = a.sort ∧
      options.iterationFactor = a.iterationFactor := by
  cases hread : Arguments.read {} args with
  | error error => exact nomatch (ofArguments_of_read_eq_error hread).symm.trans h
  | ok a =>
    rcases ofArguments_cases hread with ⟨options', hok, hgiven⟩ | ⟨herror, -⟩
    · obtain rfl : options' = options := Except.ok.inj (hok.symm.trans h)
      exact ⟨a, rfl, hgiven⟩
    · exact nomatch herror.symm.trans h

/-- If they make no sense, they cannot be read, or there is another number of paths. -/
theorem of_ofArguments_eq_error {error : UsageError}
    (h : Options.ofArguments args = .error error) :
    Arguments.read {} args = .error error ∨
      ∃ a, Arguments.read {} args = .ok a ∧ ¬ (a.paths.length = 1 ∨ a.paths.length = 2) ∧
        error = .pathCount := by
  cases hread : Arguments.read {} args with
  | error e =>
    obtain rfl : e = error := Except.error.inj ((ofArguments_of_read_eq_error hread).symm.trans h)
    exact .inl rfl
  | ok a =>
    rcases ofArguments_cases hread with ⟨options, hok, -⟩ | ⟨herror, hcount⟩
    · exact nomatch hok.symm.trans h
    · exact .inr ⟨a, rfl, hcount, (Except.error.inj (herror.symm.trans h)).symm⟩

/-- The last iteration factor is spelled by the last text. -/
theorem getLast?_of_forall₂ {numbers : List Nat} (h : List.Forall₂ SpellsFactor factors numbers)
    (n : Nat) :
    numbers.getLast? = some n ↔ ∃ text, factors.getLast? = some text ∧ SpellsFactor text n := by
  rw [← List.head?_reverse, ← List.head?_reverse]
  have hreverse := List.rel_reverse h
  generalize factors.reverse = texts, numbers.reverse = ns at hreverse
  cases hreverse with
  | nil => simp
  | cons hspells _ =>
    constructor
    · rintro ⟨⟩
      exact ⟨_, rfl, hspells⟩
    · rintro ⟨text, ⟨⟩, hspells'⟩
      exact congrArg some (hspells.unique hspells')

theorem exists_of_forall₂ {numbers : List Nat} (h : List.Forall₂ SpellsFactor factors numbers) :
    ∀ text ∈ factors, ∃ n, SpellsFactor text n := by
  induction h with
  | nil => exact fun text htext => absurd htext List.not_mem_nil
  | cons hspells _ ih => exact List.forall_mem_cons.mpr ⟨⟨_, hspells⟩, ih⟩

/-- The options are those that flags, iteration factors and paths ask for. -/
structure Options.Answers (options : Options) (flags : Multiset Flag)
    (factors paths : List String) : Prop where
  /-- Each flag has its effect just if it is there. -/
  validate : options.validate = false ↔ .noValidate ∈ flags
  json : options.json = true ↔ .json ∈ flags
  sort : options.sort = true ↔ .sort ∈ flags
  /-- The last iteration factor counts. -/
  iterationFactor : ∀ n, options.iterationFactor = some n ↔
    ∃ text, factors.getLast? = some text ∧ SpellsFactor text n
  /-- The first path is that of the input, and a second one that of the output. -/
  paths : paths = options.inputPath :: options.outputPath.toList

/-- What is wrong, and how it is told: the first text that is no iteration factor, and only if
there is none the number of paths. -/
inductive Blames (factors : List String) : UsageError → String → Prop where
  | badFactor {i : Nat} {text : String}
      (h : FirstAt (fun text => ¬ ∃ n, SpellsFactor text n) factors i text) :
      Blames factors (.badFactor text) ("Invalid iteration factor '" ++ text ++ "'")
  | pathCount (h : ∀ text ∈ factors, ∃ n, SpellsFactor text n) : Blames factors .pathCount usage

theorem answers_of_interleaves {options : Options} (h : Interleaves flags factors paths args)
    (hpaths : ∀ path ∈ paths, ¬ Dashed path) (hok : Options.ofArguments args = .ok options) :
    options.Answers flags factors paths := by
  obtain ⟨a, hread, hgiven, hvalidate, hjson, hsort, hfactor⟩ := of_ofArguments_eq_ok hok
  obtain ⟨numbers, hnumbers, rfl⟩ := of_read_eq_ok h hpaths hread
  constructor
  case validate => simp [hvalidate, Arguments.extended]
  case json => simp [hjson, Arguments.extended]
  case sort => simp [hsort, Arguments.extended]
  case iterationFactor =>
    intro n
    rw [← getLast?_of_forall₂ hnumbers, hfactor]
    show numbers.getLast?.or none = some n ↔ _
    rw [Option.or_none]
  case paths => exact hgiven

theorem blames_of_interleaves {error : UsageError} (h : Interleaves flags factors paths args)
    (hpaths : ∀ path ∈ paths, ¬ Dashed path) (herror : Options.ofArguments args = .error error) :
    Blames factors error error.message := by
  rcases of_ofArguments_eq_error herror with hread | ⟨a, hread, -, rfl⟩
  · obtain ⟨i, text, hfirst, rfl⟩ := of_read_eq_error h hpaths hread
    exact .badFactor hfirst
  · obtain ⟨numbers, hnumbers, -⟩ := of_read_eq_ok h hpaths hread
    exact .pathCount (exists_of_forall₂ hnumbers)

/-- Mixed arguments make sense just if the iteration factors are spelled properly and there are
one or two paths. -/
theorem accepts_iff_of_interleaves (h : Interleaves flags factors paths args)
    (hpaths : ∀ path ∈ paths, ¬ Dashed path) :
    (∃ options, Options.ofArguments args = .ok options) ↔
      (∀ text ∈ factors, ∃ n, SpellsFactor text n) ∧ (paths.length = 1 ∨ paths.length = 2) := by
  constructor
  · rintro ⟨options, hok⟩
    obtain ⟨a, hread, -⟩ := of_ofArguments_eq_ok hok
    obtain ⟨numbers, hnumbers, -⟩ := of_read_eq_ok h hpaths hread
    refine ⟨exists_of_forall₂ hnumbers, ?_⟩
    rw [(answers_of_interleaves h hpaths hok).paths]
    cases options.outputPath with
    | none => exact .inl rfl
    | some output => exact .inr rfl
  · rintro ⟨hfactors, hcount⟩
    cases hargs : Options.ofArguments args with
    | ok options => exact ⟨options, rfl⟩
    | error error =>
      rcases of_ofArguments_eq_error hargs with hread | ⟨a, hread, hnot, -⟩
      · obtain ⟨i, text, ⟨htext, hbad, -⟩, -⟩ := of_read_eq_error h hpaths hread
        exact absurd (hfactors text (List.mem_of_getElem? htext)) hbad
      · obtain ⟨numbers, -, rfl⟩ := of_read_eq_ok h hpaths hread
        exact absurd hcount hnot

/-- **Arguments make sense just if they are a mix** of flags, iteration factors that are spelled
properly, and one or two paths. -/
theorem accepts_iff_mixed (args : List String) :
    (∃ options, Options.ofArguments args = .ok options) ↔
      ∃ flags factors paths, Interleaves flags factors paths args ∧
        (∀ path ∈ paths, ¬ Dashed path) ∧ (∀ text ∈ factors, ∃ n, SpellsFactor text n) ∧
        (paths.length = 1 ∨ paths.length = 2) := by
  constructor
  · rintro ⟨options, hok⟩
    obtain ⟨a, hread, -⟩ := of_ofArguments_eq_ok hok
    obtain ⟨flags, factors, paths, hmixed, hpaths⟩ := exists_interleaves_of_read hread
    exact ⟨flags, factors, paths, hmixed, hpaths,
      (accepts_iff_of_interleaves hmixed hpaths).mp ⟨options, hok⟩⟩
  · rintro ⟨flags, factors, paths, hmixed, hpaths, hproper⟩
    exact (accepts_iff_of_interleaves hmixed hpaths).mpr hproper

/-- **The order of the options makes no difference**: all argument lists that mix the same flags,
iteration factors and paths ask for the same, or the same is wrong with them. -/
theorem ofArguments_of_interleaves (h : Interleaves flags factors paths args)
    (hpaths : ∀ path ∈ paths, ¬ Dashed path) :
    (∀ args', Interleaves flags factors paths args' →
        Options.ofArguments args' = Options.ofArguments args) ∧
      ((∃ options, Options.ofArguments args = .ok options) ↔
        (∀ text ∈ factors, ∃ n, SpellsFactor text n) ∧
          (paths.length = 1 ∨ paths.length = 2)) ∧
      (∀ options, Options.ofArguments args = .ok options → options.Answers flags factors paths) ∧
      ∀ error, Options.ofArguments args = .error error → Blames factors error error.message := by
  refine ⟨?_, accepts_iff_of_interleaves h hpaths, ?_, ?_⟩
  · intro args' h'
    unfold Options.ofArguments
    rw [read_of_interleaves h hpaths, read_of_interleaves h' hpaths]
  · exact fun options => answers_of_interleaves h hpaths
  · exact fun error => blames_of_interleaves h hpaths

end Reading

/-- Two orders of the same arguments, in which a flag is repeated and the second iteration factor
counts. -/
theorem ofArguments_of_interleaves_sortedTwice :
    let flags : Multiset Flag := {.sort, .json, .sort}
    let factors := ["3", "+7"]
    let paths := ["in.yaml", "out.json"]
    let args := ["--sort", "in.yaml", "--iteration-factor", "3", "--json", "--iteration-factor",
      "+7", "out.json", "--sort"]
    let args' := ["in.yaml", "out.json", "--iteration-factor", "3", "--iteration-factor", "+7",
      "--json", "--sort", "--sort"]
    Interleaves flags factors paths args ∧ Interleaves flags factors paths args' ∧
      (∀ path ∈ paths, ¬ Dashed path) ∧ Options.ofArguments args' = Options.ofArguments args ∧
      ∃ options, Options.ofArguments args = .ok options ∧ options.Answers flags factors paths ∧
        options.validate = true ∧ options.iterationFactor = some 7 := by
  intro flags factors paths args args'
  have hmixed : Interleaves flags factors paths args :=
    .flag .sort (.path _ (.factor _ (.flag .json (.factor _ (.path _ (.flag .sort .nil))))))
  have hmixed' : Interleaves flags factors paths args' := by
    have hflags : flags = {.json, .sort, .sort} := by decide
    rw [hflags]
    exact .path _ (.path _ (.factor _ (.factor _ (.flag .json (.flag .sort (.flag .sort .nil))))))
  have hpaths : ∀ path ∈ paths, ¬ Dashed path := by decide
  have hthree : SpellsFactor "3" 3 := factor?_eq_some_iff.mp (by decide)
  have hseven : SpellsFactor "+7" 7 := factor?_eq_some_iff.mp (by decide)
  obtain ⟨hsame, haccepts, hanswers, -⟩ := ofArguments_of_interleaves hmixed hpaths
  have hfactors : ∀ text ∈ factors, ∃ n, SpellsFactor text n :=
    List.forall_mem_cons.mpr ⟨⟨3, hthree⟩, List.forall_mem_singleton.mpr ⟨7, hseven⟩⟩
  obtain ⟨options, hok⟩ := haccepts.mpr ⟨hfactors, .inr rfl⟩
  have hoptions := hanswers options hok
  refine ⟨hmixed, hmixed', hpaths, hsame args' hmixed', options, hok, hoptions, ?_, ?_⟩
  · have hvalidate : options.validate ≠ false := by
      rw [Ne, hoptions.validate]
      decide
    exact eq_true_of_ne_false hvalidate
  · exact (hoptions.iterationFactor 7).mpr ⟨"+7", rfl, hseven⟩

end CommandLine

end Playthrough
