/-!
# Access to files

What the program needs of a file system: reading a text and writing one, each of
which may fail. `FileAccess m` leaves open where the files are; `m` is the effect of
getting at them.
-/

namespace Playthrough

/-- Why a file cannot be read or written. -/
inductive FileError where
  /-- There is no such file, or no directory to put it into. -/
  | notFound
  /-- The path is that of a directory. -/
  | isDirectory
  /-- A part of the path is no directory. -/
  | notDirectory
  /-- The file does not contain text. -/
  | notText
  /-- Any other reason, in words. -/
  | other (reason : String)
deriving DecidableEq

/-- The wording of a reason. -/
def FileError.message : FileError → String
  | notFound => "No such file or directory (os error 2)"
  | isDirectory => "Is a directory (os error 21)"
  | notDirectory => "Not a directory (os error 20)"
  | notText => "stream did not contain valid UTF-8"
  | other reason => reason

/-- Ways to read and write files by their paths. -/
structure FileAccess (m : Type → Type) where
  /-- Reads the text in a file. -/
  read : String → m (Except FileError String)
  /-- Makes a text the whole content of a file, which is created if need be. -/
  write : String → String → m (Except FileError Unit)

end Playthrough
