/-
  Stocklist/Files.lean
  ====================
  **A tree of files, and what opening a path in it comes to.**

  A path is walked name by name, from the root if a slash leads it and from the working
  directory if not.  An empty name and a dot stay where they are, two dots go up; all of
  them need a directory to stand in, so a slash after the name of a file is refused.  A
  directory can be opened, but reading it fails at once.
-/
import Stocklist.Catalog.Load
import Stocklist.Text.Parts

namespace Stocklist

open Catalog (Source)

/-- The names that lead from the root to a file or a directory. -/
abbrev Place := List String

/-- The place to which a name leads. -/
def Place.enter (place : Place) (name : String) : Place :=
  if name = "" || name = "." then place
  else if name = ".." then place.dropLast
  else place ++ [name]

def namesOf (path : String) : List String :=
  (Text.parts '/' path.toList).map String.ofList

/-- The places on the way along a path, the last one first. -/
def Place.trail (start : Place) (path : String) : List Place :=
  (namesOf path).foldl (fun trail name => (trail.headD start).enter name :: trail) [start]

/-- A tree of files with a working directory in it.  The directories are the places on the
    way to a file, to the working directory or to another given directory. -/
structure Files where
  workingDirectory : Place
  directories : List Place
  files : List (Place × List UInt8)
deriving DecidableEq, Repr

namespace Files

/-- Why a path cannot be opened. -/
inductive OpenError where
  | missing
  | notDirectory
  | nameTooLong
  | nullInPath
deriving DecidableEq, Repr

def OpenError.message : OpenError → String
  | .missing => "No such file or directory (os error 2)"
  | .notDirectory => "Not a directory (os error 20)"
  | .nameTooLong => "File name too long (os error 36)"
  | .nullInPath => "file name contained an unexpected NUL byte"

/-- How reading a directory fails. -/
def directoryFailure : String := "Is a directory (os error 21)"

def maxName : Nat := 255

/-- The least number of bytes of a path that is too long. -/
def pathLimit : Nat := 4096

def isDirectory (t : Files) (place : Place) : Bool :=
  (t.workingDirectory :: t.directories).any place.isPrefixOf ||
    t.files.any fun (file, _) => place.isPrefixOf file && place ≠ file

def isFile (t : Files) (place : Place) : Bool :=
  t.files.any fun (file, _) => place = file

/-- The place that one name of a path leads to. -/
def step (t : Files) (place : Place) (name : String) : Except OpenError Place :=
  if !t.isDirectory place then .error .notDirectory
  else if name.utf8ByteSize > maxName then .error .nameTooLong
  else
    let next := place.enter name
    if t.isFile next || t.isDirectory next then .ok next else .error .missing

/-- The place that a path leads to. -/
def resolve (t : Files) (path : String) : Except OpenError Place :=
  if '\x00' ∈ path.toList then .error .nullInPath
  else if path = "" then .error .missing
  else if path.utf8ByteSize ≥ pathLimit then .error .nameTooLong
  else
    let start := if path.toList.head? = some '/' then [] else t.workingDirectory
    (namesOf path).foldlM t.step start

def openPath (t : Files) (path : String) : Except OpenError Source := do
  let place ← t.resolve path
  match t.files.lookup place with
  | some bytes => return ⟨bytes, none⟩
  | none => return ⟨[], some directoryFailure⟩

/-- The tree with the given files, by their paths from the working directory, and with all
    directories on the way to them. -/
def ofRelative (workingDirectory : Place) (files : List (String × List UInt8)) : Files :=
  let trails := files.map fun (path, bytes) => (workingDirectory.trail path, bytes)
  { workingDirectory
    directories := trails.flatMap fun (trail, _) => trail.drop 1
    files := trails.map fun (trail, bytes) => (trail.headD workingDirectory, bytes) }

end Files

end Stocklist
