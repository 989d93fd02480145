import ComponentLint.Files.Probe
import ComponentLint.Path
import ComponentLint.Span

/-!
# File trees

The files and directories below a working directory. What lies above it is known only as
directories: nothing else is found there.

A path is walked from the left. A part that is empty or a single dot stays in place, two dots go up,
and everything after something that is no directory is a fault.
-/

namespace ComponentLint

/-- A place below the working directory, by the names that lead to it, the last one first. -/
abbrev FilePlace := List (List Char)

/-- The files and directories below a working directory. -/
structure FileTree where
  /-- The files. -/
  files : List FilePlace := []
  /-- The directories, except for the working directory. -/
  directories : List FilePlace := []
deriving DecidableEq, Repr, Inhabited

namespace FileTree

/-- A place on the way along a path. -/
inductive Position where
  /-- A directory below the working directory, or that directory. -/
  | directory (place : FilePlace)
  /-- A file. -/
  | file
  /-- A directory above the working directory. -/
  | above
deriving DecidableEq, Repr, Inhabited

/-- The greatest length of a name, in bytes. -/
def maxNameLength : Nat := 255

/-- The length, in bytes, that a path must not reach. -/
def pathLengthBound : Nat := 4096

/-- What a place holds, if anything. -/
def find? (t : FileTree) (place : FilePlace) : Option Position :=
  if t.files.contains place then some .file
  else if t.directories.contains place then some (.directory place)
  else none

/-- The directory above a place. -/
def up : FilePlace → Position
  | [] => .above
  | _ :: rest => .directory rest

/-- Goes on to a name in a directory; `none` if it is not there. -/
def enter (t : FileTree) (place : Option FilePlace) (name : List Char) :
    Except FileFault (Option Position) :=
  if maxNameLength < byteLength name then .error .invalidFilename
  else .ok (place.bind fun p => t.find? (name :: p))

/-- Goes on by one part of a path; `none` if the part is not there. -/
def step (t : FileTree) (part : List Char) : Position → Except FileFault (Option Position)
  | .file => .error .notADirectory
  | .above =>
    if Path.isSilent part || part = ['.', '.'] then .ok (some .above) else t.enter none part
  | .directory place =>
    if Path.isSilent part then .ok (some (.directory place))
    else if part = ['.', '.'] then .ok (some (up place))
    else t.enter (some place) part

/-- Walks along the parts of a path and tells whether its end is there. -/
def walk (t : FileTree) : List (List Char) → Position → Except FileFault Bool
  | [], _ => .ok true
  | part :: rest, position =>
    match t.step part position with
    | .error fault => .error fault
    | .ok none => .ok false
    | .ok (some next) => t.walk rest next

/-- Where a path begins: an absolute one far up, any other at the working directory. -/
def origin (path : List Char) : Position :=
  if path.head? = some '/' then .above else .directory []

/-- Whether a path leads to a file or a directory. -/
def exists? (t : FileTree) (path : String) : Except FileFault Bool :=
  let cs := path.toList
  if cs.contains '\x00' then .error .invalidInput
  else if pathLengthBound ≤ byteLength cs then .error .invalidFilename
  else if cs.isEmpty then .ok false
  else t.walk (Path.parts cs) (origin cs)

/-- The siblings of files in a tree. -/
def siblings (t : FileTree) : Siblings := fun path name => t.exists? (Path.sibling path name)

/-! ## Changes -/

/-- The place of a path below the working directory. -/
def placeOf (path : String) : FilePlace :=
  (Path.parts path.toList).foldl
    (fun place part =>
      if Path.isSilent part then place
      else if part = ['.', '.'] then place.tail
      else part :: place)
    []

/-- Adds a directory and those above it. -/
def addDirectory (t : FileTree) : FilePlace → FileTree
  | [] => t
  | name :: rest =>
    let t := t.addDirectory rest
    if t.directories.contains (name :: rest) then t
    else { t with directories := (name :: rest) :: t.directories }

/-- Makes a directory and those above it. -/
def mkdir (t : FileTree) (path : String) : FileTree := t.addDirectory (placeOf path)

/-- Writes a file and makes the directories above it. -/
def write (t : FileTree) (path : String) : FileTree :=
  let place := placeOf path
  let t := t.addDirectory place.tail
  if t.files.contains place then t else { t with files := place :: t.files }

/-- Removes a file. -/
def remove (t : FileTree) (path : String) : FileTree :=
  { t with files := t.files.filter (· != placeOf path) }

end FileTree

end ComponentLint
