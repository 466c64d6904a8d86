import Playthrough.Files

/-!
# File trees

The files below a directory, as a value. Paths are understood relative to that
directory: `.` and empty steps stay, `..` goes up, and a file cannot be passed
through. Of what lies outside the directory nothing is known, so nothing is found
there.

`FileTree.access` reads and writes the files of a tree that is kept as state.
-/

namespace Playthrough

/-- What a name stands for. -/
inductive FileEntry where
  /-- A file that contains a text. -/
  | text (content : String)
  /-- A file that contains something else. -/
  | binary
  /-- A directory. -/
  | directory
deriving DecidableEq

/-- The files and directories below a directory, by the steps that lead to them. A
directory with something in it need not be listed. -/
structure FileTree where
  /-- The listed files and directories. -/
  entries : List (List String × FileEntry) := []
deriving DecidableEq

namespace FileTree

/-! ## Places -/

/-- A place that a path leads to: some steps below the directory, or outside. -/
inductive Place where
  | inside (steps : List String)
  | outside
deriving DecidableEq

/-- What is at a place below the directory. -/
def entry? (tree : FileTree) (steps : List String) : Option FileEntry :=
  (tree.entries.lookup steps).or <|
    if steps.isEmpty || tree.entries.any (steps.isPrefixOf ·.1) then some .directory else none

/-- Goes one step on from a place, which has to be a directory. -/
def step (tree : FileTree) (place : Place) (name : String) : Except FileError Place :=
  match place with
  | .outside => if name == "." || name == ".." then .ok .outside else .error .notFound
  | .inside steps =>
    match tree.entry? steps with
    | none => .error .notFound
    | some .directory =>
      if name == "." then .ok place
      else if name == ".." then
        .ok (if steps.isEmpty then .outside else .inside steps.dropLast)
      else .ok (.inside (steps ++ [name]))
    | some _ => .error .notDirectory

/-- The place that a path leads to. Nothing need be there. -/
def locate (tree : FileTree) (path : String) : Except FileError Place :=
  if path.isEmpty then .error .notFound
  else
    let start := if path.toList.head? == some '/' then .outside else .inside []
    (path.splitOn "/" |>.filter (· ≠ "")).foldlM tree.step start

/-- Whether a path can only be meant for a directory. -/
def meansDirectory (path : String) : Bool :=
  ["", ".", ".."].contains ((path.splitOn "/").getLast?.getD "")

/-! ## Reading and writing -/

/-- Reads the text in a file. -/
def read (tree : FileTree) (path : String) : Except FileError String := do
  match (← tree.locate path) with
  | .outside => .error .isDirectory
  | .inside steps =>
    match tree.entry? steps with
    | none => .error .notFound
    | some .directory => .error .isDirectory
    | some file =>
      if meansDirectory path then .error .notDirectory
      else
        match file with
        | .text content => .ok content
        | _ => .error .notText

/-- The tree with a text as the content of a file. -/
def write (tree : FileTree) (path content : String) : Except FileError FileTree := do
  match (← tree.locate path) with
  | .outside => .error .isDirectory
  | .inside steps =>
    if meansDirectory path || tree.entry? steps == some .directory then .error .isDirectory
    else .ok { entries := (steps, .text content) :: tree.entries.filter (·.1 ≠ steps) }

/-- Access to a tree that is kept as state. A write that fails changes nothing. -/
def access : FileAccess (StateM FileTree) where
  read path := return (← get).read path
  write path content := do
    match (← get).write path content with
    | .ok tree =>
      set tree
      return .ok ()
    | .error e => return .error e

end FileTree

end Playthrough
