import Playthrough.CommandLine.Options
import Playthrough.Formats
import Playthrough.Layout.Reader

/-!
# The command line

The program reads a layout from a file and writes down what is played, on standard
output or into another file. Either everything succeeds, or nothing is written and the
reason is told.

`run` is the program over any access to files and any formats of what is in them.
-/

namespace Playthrough.CommandLine

/-- What a run of the program shows. -/
structure Outcome where
  /-- The exit code. -/
  code : Nat
  /-- The standard output. -/
  stdout : String := ""
  /-- The standard error. -/
  stderr : String := ""
deriving DecidableEq

/-- Why a run fails. -/
inductive Failure where
  /-- The arguments make no sense. -/
  | usage (error : UsageError)
  /-- There is no layout that may be performed. -/
  | layout (error : LayoutError)
  /-- The records of the performance cannot be written. -/
  | rendering (reason : String)
  /-- The output cannot be written. -/
  | output (path : String) (reason : FileError)
deriving DecidableEq

/-- The wording of a failure. -/
def Failure.message : Failure → String
  | usage error => error.message
  | layout error => "Error: " ++ error.message
  | rendering reason => "Error: Cannot render sequence: " ++ reason
  | output path reason => "Error writing to '" ++ path ++ "': " ++ reason.message

/-- A run that fails. -/
def Failure.outcome (failure : Failure) : Outcome :=
  { code := 1, stderr := failure.message ++ "\n" }

namespace Options

/-- The layout as the options want it, provided that it may be performed. -/
def prepare (options : Options) (layout : Layout) : Except LayoutError Layout := do
  let layout := if options.sort then layout.sorted else layout
  let layout ←
    if options.validate then layout.validated.mapError .faulty else .ok layout
  match options.iterationFactor with
  | some iterationFactor => return { layout with settings := { iterationFactor } }
  | none => return layout

/-- What is played of a layout, in the form that the options want. -/
def listing (options : Options) (formats : Formats) (layout : Layout) : Except String String :=
  let passages := layout.performance.passages
  if options.json then formats.print (passages.map Passage.record) else .ok (listText passages)

/-- The output for the layout in the input file, or why there is none. -/
def answer (options : Options) (formats : Formats) (input : Except LayoutError Layout) :
    Except Failure String := do
  let layout ← (input.bind options.prepare).mapError .layout
  (options.listing formats layout).mapError .rendering

end Options

/-- Puts the output where it belongs. -/
def deliver {m : Type → Type} [Monad m] (files : FileAccess m) (output : String) :
    Option String → m Outcome
  | none => return { code := 0, stdout := output }
  | some path => do
    match ← files.write path output with
    | .ok () => return { code := 0, stderr := "Wrote playback sequence to " ++ path ++ "\n" }
    | .error reason => return (Failure.output path reason).outcome

/-- The program, given its arguments and identifiers for segments without one. -/
def run {m : Type → Type} [Monad m] (files : FileAccess m) (formats : Formats)
    (freshId : Nat → Uuid) (args : List String) : m Outcome := do
  match Options.ofArguments args with
  | .error error => return (Failure.usage error).outcome
  | .ok options =>
    let input ← Layout.ofFile files formats.decode freshId options.inputPath
    match options.answer formats input with
    | .error failure => return failure.outcome
    | .ok output => deliver files output options.outputPath

end Playthrough.CommandLine
