import Playthrough.CommandLine
import Playthrough.Formats.Standard

/-!
# The program

The command line over the files of the system, in the standard formats.
-/

namespace Playthrough

/-- The reason for an error of the system. -/
def FileError.ofSystem : IO.Error → FileError
  | .noFileOrDirectory .. => .notFound
  | .inappropriateType _ 21 _ => .isDirectory
  | .inappropriateType _ 20 _ => .notDirectory
  | error => .other (toString error)

/-- Access to the files of the system. -/
def systemFiles : FileAccess IO where
  read path := do
    try
      match String.fromUTF8? (← IO.FS.readBinFile path) with
      | some text => return .ok text
      | none => return .error .notText
    catch error => return .error (.ofSystem error)
  write path content := do
    try
      IO.FS.writeFile path content
      return .ok ()
    catch error => return .error (.ofSystem error)

/-- Identifiers that are numbered from a random one on. -/
def randomIds : IO (Nat → Uuid) := do
  let bytes ← IO.getRandomBytes 16
  let start := bytes.foldl (fun n byte => n * 256 + byte.toNat) 0
  return fun index => Uuid.ofRandomBits (start + index)

end Playthrough

/-- Runs the program on its arguments. -/
def main (args : List String) : IO UInt32 := do
  let freshId ← Playthrough.randomIds
  let outcome ← Playthrough.CommandLine.run Playthrough.systemFiles Playthrough.Formats.standard
    freshId args
  IO.print outcome.stdout
  IO.eprint outcome.stderr
  return outcome.code.toUInt32
