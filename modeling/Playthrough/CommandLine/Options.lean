import Playthrough.Decimal

/-!
# Command-line options

The arguments of the program: flags, an iteration factor, the path of a layout and
perhaps the path of a file for the output. Flags may stand anywhere among the paths.
The first argument that makes no sense is reported; whether there are enough paths is
looked at last.
-/

namespace Playthrough.CommandLine

/-- How to use the program. -/
def usage : String :=
  "Usage: reprise [--no-validate] [--json] [--sort] [--iteration-factor N] " ++
    "<layout.yaml> [output]"

/-- What is wrong with the arguments. -/
inductive UsageError where
  /-- No iteration factor follows its flag. -/
  | factorMissing
  /-- What follows the flag is no iteration factor. -/
  | badFactor (value : String)
  /-- A flag is not known. -/
  | unknownFlag (flag : String)
  /-- There are too few or too many paths. -/
  | pathCount
deriving DecidableEq

/-- The wording of an error. -/
def UsageError.message : UsageError → String
  | factorMissing => "--iteration-factor needs a value"
  | badFactor value => "Invalid iteration factor '" ++ value ++ "'"
  | unknownFlag flag => "Unknown option '" ++ flag ++ "'"
  | pathCount => usage

/-! ## Arguments -/

/-- A single argument. -/
inductive Argument where
  /-- Performs scores that are not valid. -/
  | noValidate
  /-- Writes JSON instead of text. -/
  | json
  /-- Puts the segments into reading order first. -/
  | sort
  /-- Announces an iteration factor. -/
  | iterationFactor
  /-- Any other argument with two dashes in front. -/
  | unknown
  /-- Any argument without them. -/
  | path
deriving DecidableEq

/-- What an argument is. -/
def Argument.ofText (s : String) : Argument :=
  if s = "--no-validate" then .noValidate
  else if s = "--json" then .json
  else if s = "--sort" then .sort
  else if s = "--iteration-factor" then .iterationFactor
  else if ['-', '-'].isPrefixOf s.toList then .unknown
  else .path

/-- Iteration factors have at most 64 bits. -/
def factorLimit : Nat := 0x10000000000000000

/-- Reads an iteration factor: digits, perhaps behind a plus sign. -/
def factor? (s : String) : Option Nat :=
  let digits := match s.toList with
    | '+' :: cs => cs
    | cs => cs
  (Decimal.nat? digits).filter (· < factorLimit)

/-! ## Reading arguments -/

/-- What the arguments say so far. -/
structure Arguments where
  /-- Whether the score has to be valid. -/
  validate : Bool := true
  /-- Whether to write JSON. -/
  json : Bool := false
  /-- Whether to put the segments into reading order. -/
  sort : Bool := false
  /-- The iteration factor, which overrides that of the layout. -/
  iterationFactor : Option Nat := none
  /-- The paths. -/
  paths : List String := []
deriving DecidableEq

/-- Reads arguments one after the other. -/
def Arguments.read (a : Arguments) : List String → Except UsageError Arguments
  | [] => .ok a
  | arg :: rest =>
    match Argument.ofText arg with
    | .noValidate => Arguments.read { a with validate := false } rest
    | .json => Arguments.read { a with json := true } rest
    | .sort => Arguments.read { a with sort := true } rest
    | .iterationFactor =>
      match rest with
      | [] => .error .factorMissing
      | value :: rest =>
        match factor? value with
        | none => .error (.badFactor value)
        | some factor => Arguments.read { a with iterationFactor := some factor } rest
    | .unknown => .error (.unknownFlag arg)
    | .path => Arguments.read { a with paths := a.paths ++ [arg] } rest

/-- What the program is asked to do. -/
structure Options where
  /-- Whether the score has to be valid. -/
  validate : Bool
  /-- Whether to write JSON. -/
  json : Bool
  /-- Whether to put the segments into reading order. -/
  sort : Bool
  /-- The iteration factor, if it is not to be that of the layout. -/
  iterationFactor : Option Nat
  /-- The path of the layout. -/
  inputPath : String
  /-- The path of the file for the output, if there is to be one. -/
  outputPath : Option String
deriving DecidableEq

/-- Reads all arguments. -/
def Options.ofArguments (args : List String) : Except UsageError Options := do
  let a ← Arguments.read {} args
  let options (inputPath : String) (outputPath : Option String) : Options :=
    { validate := a.validate
      json := a.json
      sort := a.sort
      iterationFactor := a.iterationFactor
      inputPath
      outputPath }
  match a.paths with
  | [input] => .ok (options input none)
  | [input, output] => .ok (options input (some output))
  | _ => .error .pathCount

end Playthrough.CommandLine
